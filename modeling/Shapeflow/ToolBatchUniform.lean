import Shapeflow.Fallible
import Shapeflow.ToolBatch

set_option autoImplicit false

/-!
# A turn is published in one form or not at all

Whatever the strategy returns or raises, the deferred siblings of a turn carry
the strategy's content throughout, or the vendor rendering throughout, or
nothing is published.
-/
namespace Shapeflow.ToolBatch

section
variable {γ : Type}

/-- The observations with the deferred ones replaced, in order, by `values`. -/
def carrying : List (Observation γ) → List γ → List (Observation γ)
  | [], _ => []
  | .plain value :: rest, values => .plain value :: carrying rest values
  | .deferred batch :: rest, [] => .deferred batch :: carrying rest []
  | .deferred _ :: rest, value :: values => .plain value :: carrying rest values

/-- The checkpoint holds occurrence `o` among the results of call `callId`. -/
def Offered (checkpoint : HCheckpoint) (callId o : String) : Prop :=
  ∃ results, (callId, results) ∈ checkpoint.searchResultSets ∧
    ∃ r ∈ results, r.sourceOccurrenceId = some o

/-- The calls of the deferred observations, in their order. -/
def deferredCalls : List (Observation γ) → List ToolCall → List ToolCall
  | .deferred _ :: rest, call :: calls => call :: deferredCalls rest calls
  | .plain _ :: rest, _ :: calls => deferredCalls rest calls
  | _, _ => []

/-- The outcomes a turn may have: all of the strategy's content, all of the vendor rendering, or a
    failure that publishes nothing. -/
inductive Uniform (observations : List (Observation γ)) (toolCalls : List ToolCall)
    (transform : Transform γ) (componentTrial : Bool) (outcome : BatchOutcome γ) : Prop
  | untouched (hnone : deferredRenderings observations = [])
      (hobs : outcome.observations = observations) (hfailure : outcome.failure = none)
      (hback : outcome.fellBack = false)
  | failed (htrial : componentTrial = true) (hfailure : outcome.failure.isSome)
      (hback : outcome.fellBack = false) (hprovenance : outcome.publicationProvenance = [])
  | published (produced : List (ToolObservation γ)) (htransform : transform = .returned produced)
      (hids : produced.map (·.callId) = (deferredCalls observations toolCalls).map (·.callId))
      (hobs : outcome.observations = carrying observations (produced.map (·.content)))
      (hfailure : outcome.failure = none) (hback : outcome.fellBack = false)
  | fellBack (htrial : componentTrial = false) (rendered : List γ)
      (hrendered : (deferredRenderings observations).map (·.result) = rendered.map .ok)
      (hobs : outcome.observations = carrying observations rendered)
      (hfailure : outcome.failure.isSome) (hback : outcome.fellBack = true)

/-- Why a turn is left with nothing to publish. -/
inductive Aborted (observations : List (Observation γ)) (toolCalls : List ToolCall)
    (transform : Transform γ) (componentTrial : Bool) : BatchRaised → Prop
  | storeCheckpoint (e : PyException) :
      Aborted observations toolCalls transform componentTrial (.storeCheckpoint e)
  | cancelled (h : transform = .cancelled) :
      Aborted observations toolCalls transform componentTrial .cancelled
  | handleDomainError (message : String) (h : transform = .handleDomainError message) :
      Aborted observations toolCalls transform componentTrial (.handleDomainError message)
  | renderVendor (e : PyException) (htrial : componentTrial = false) (r : Rendering γ)
      (hr : r ∈ deferredRenderings observations) (h : r.result = .error e) :
      Aborted observations toolCalls transform componentTrial (.renderVendor e)
  | indexError (h : toolCalls.length < observations.length) :
      Aborted observations toolCalls transform componentTrial .indexError

end

/-! ## Filling the deferred positions -/

section
variable {γ : Type}

/-- The deferred positions of a batch whose first observation has number `n`. -/
def positionsFrom (n : ℕ) (observations : List (Observation γ)) : List ℕ :=
  ((observations.zipIdx n).filter fun o => isDeferred o.1).map Prod.snd

theorem positionsFrom_plain (n : ℕ) (value : γ) (rest : List (Observation γ)) :
    positionsFrom n (.plain value :: rest) = positionsFrom (n + 1) rest := by
  simp [positionsFrom, List.zipIdx_cons, isDeferred]

theorem positionsFrom_deferred (n : ℕ) (batch : DeferredPageBatch γ) (rest : List (Observation γ)) :
    positionsFrom n (.deferred batch :: rest) = n :: positionsFrom (n + 1) rest := by
  simp [positionsFrom, List.zipIdx_cons, isDeferred]

theorem positionsFrom_length (n : ℕ) (observations : List (Observation γ)) :
    (positionsFrom n observations).length = (deferredRenderings observations).length := by
  induction observations generalizing n with
  | nil => rfl
  | cons o rest ih =>
    cases o with
    | plain value =>
      rw [positionsFrom_plain, ih]
      rfl
    | deferred batch =>
      rw [positionsFrom_deferred, List.length_cons, ih]
      rfl

theorem carrying_nil (observations : List (Observation γ)) : carrying observations [] = observations := by
  induction observations with
  | nil => rfl
  | cons o rest ih =>
    cases o with
    | plain value => simp only [carrying, ih]
    | deferred batch => simp only [carrying, ih]

theorem assignAt_cons (staged : List (Observation γ)) (i : ℕ) (value : γ) (pairs : List (ℕ × γ)) :
    assignAt staged ((i, value) :: pairs) = assignAt (staged.set i (.plain value)) pairs := rfl

/-- Assigning at the deferred positions of the part that follows `front`. -/
theorem assignAt_from (front observations : List (Observation γ)) {values : List γ}
    (hlen : values.length = (deferredRenderings observations).length) :
    assignAt (front ++ observations) ((positionsFrom front.length observations).zip values) =
      front ++ carrying observations values := by
  induction observations generalizing front values with
  | nil => simp [positionsFrom, assignAt, carrying]
  | cons o rest ih =>
    cases o with
    | plain value =>
      rw [positionsFrom_plain]
      have h := @ih (front ++ [.plain value]) values hlen
      simpa [carrying] using h
    | deferred batch =>
      cases values with
      | nil => simp [deferredRenderings] at hlen
      | cons value values =>
        rw [positionsFrom_deferred, List.zip_cons_cons, assignAt_cons]
        have hset : (front ++ .deferred batch :: rest).set front.length (.plain value) =
            (front ++ [.plain value]) ++ rest := by
          simp
        have h := @ih (front ++ [.plain value]) values (by simpa [deferredRenderings] using hlen)
        rw [hset]
        simpa [carrying] using h

theorem assignAt_positions (observations : List (Observation γ)) {values : List γ}
    (hlen : values.length = (deferredRenderings observations).length) :
    assignAt observations ((deferredPositions observations).zip values) =
      carrying observations values :=
  assignAt_from [] observations hlen

/-- Sibling observations that are no search result come through unchanged. -/
theorem carrying_plain {observations : List (Observation γ)} {values : List γ} {i : ℕ} {value : γ}
    (h : observations[i]? = some (.plain value)) :
    (carrying observations values)[i]? = some (.plain value) := by
  induction observations generalizing values i with
  | nil => simp at h
  | cons o rest ih =>
    cases i with
    | zero =>
      simp only [List.getElem?_cons_zero, Option.some.injEq] at h
      subst h
      rfl
    | succ i =>
      rw [List.getElem?_cons_succ] at h
      cases o with
      | plain v => exact ih h
      | deferred batch =>
        cases values with
        | nil => exact ih h
        | cons v values => exact ih h

end

/-! ## The strategy's output -/

section
variable {γ : Type}

theorem mem_fromKeys {values : List String} {v : String} : v ∈ fromKeys values ↔ v ∈ values := by
  unfold fromKeys
  rw [Dict.mem_keys_ofPairs, List.map_map]
  simp

theorem callIdAt_ok {toolCalls : List ToolCall} {i : ℕ} {callId : String} :
    callIdAt toolCalls i = .ok callId ↔ ∃ call, toolCalls[i]? = some call ∧ call.callId = callId := by
  unfold callIdAt
  cases h : toolCalls[i]? with
  | none => simp
  | some call => simp

theorem le_of_mem_positionsFrom {n i : ℕ} {observations : List (Observation γ)}
    (h : i ∈ positionsFrom n observations) : n ≤ i := by
  obtain ⟨o, ho, rfl⟩ := List.mem_map.mp h
  exact List.le_snd_of_mem_zipIdx (List.mem_filter.mp ho).1

theorem lt_of_mem_positionsFrom {n i : ℕ} {observations : List (Observation γ)}
    (h : i ∈ positionsFrom n observations) : i < n + observations.length := by
  obtain ⟨o, ho, rfl⟩ := List.mem_map.mp h
  exact List.snd_lt_add_of_mem_zipIdx (List.mem_filter.mp ho).1

/-- With no call left, ids are read only when no deferred observation is left either. -/
theorem callIds_exhausted {toolCalls : List ToolCall} {observations : List (Observation γ)}
    {ids : List String}
    (h : (positionsFrom toolCalls.length observations).mapM (callIdAt toolCalls) = .ok ids) :
    ids = [] := by
  have hmap := Fallible.mapM_ok.mp h
  cases ids with
  | nil => rfl
  | cons a ids =>
    cases hpos : positionsFrom toolCalls.length observations with
    | nil => simp [hpos] at hmap
    | cons i rest =>
      rw [hpos, List.map_cons, List.map_cons, List.cons.injEq] at hmap
      obtain ⟨call, hcall, -⟩ := callIdAt_ok.mp hmap.1
      have hmem : i ∈ positionsFrom toolCalls.length observations := by
        rw [hpos]
        exact List.mem_cons_self
      have hle : toolCalls.length ≤ i := le_of_mem_positionsFrom hmem
      rw [List.getElem?_eq_none hle] at hcall
      cases hcall

theorem deferredCalls_nil (observations : List (Observation γ)) : deferredCalls observations [] = [] := by
  cases observations with
  | nil => rfl
  | cons o rest => cases o <;> rfl

/-- The ids read at the deferred positions are those of the deferred calls. -/
theorem callIds_from (skipped toolCalls : List ToolCall) (observations : List (Observation γ))
    {ids : List String}
    (h : (positionsFrom skipped.length observations).mapM (callIdAt (skipped ++ toolCalls)) = .ok ids) :
    ids = (deferredCalls observations toolCalls).map (·.callId) := by
  induction observations generalizing skipped toolCalls ids with
  | nil =>
    have hnil := Fallible.mapM_ok.mp h
    simp only [positionsFrom, List.zipIdx_nil, List.filter_nil, List.map_nil] at hnil
    simp [List.map_eq_nil_iff.mp hnil.symm, deferredCalls]
  | cons o rest ih =>
    cases toolCalls with
    | nil =>
      rw [List.append_nil] at h
      rw [deferredCalls_nil, callIds_exhausted h, List.map_nil]
    | cons call calls =>
      have hshift : skipped ++ call :: calls = (skipped ++ [call]) ++ calls := by simp
      have hlen : skipped.length + 1 = (skipped ++ [call]).length := by simp
      cases o with
      | plain value =>
        rw [positionsFrom_plain, hshift, hlen] at h
        exact ih (skipped ++ [call]) calls h
      | deferred batch =>
        have hmap := Fallible.mapM_ok.mp h
        rw [positionsFrom_deferred, List.map_cons] at hmap
        cases ids with
        | nil => simp at hmap
        | cons a ids =>
          rw [List.map_cons, List.cons.injEq] at hmap
          obtain ⟨c, hc, hid⟩ := callIdAt_ok.mp hmap.1
          simp only [List.getElem?_append_right (Nat.le_refl _), Nat.sub_self,
            List.getElem?_cons_zero, Option.some.injEq] at hc
          have hrest := Fallible.mapM_ok.mpr hmap.2
          rw [hshift, hlen] at hrest
          rw [ih (skipped ++ [call]) calls hrest, deferredCalls, List.map_cons, hc, hid]

theorem observationOf_ok {byCall : Dict String (ToolObservation γ)} {callId : String}
    {obs : ToolObservation γ} : observationOf byCall callId = .ok obs ↔ byCall.get? callId = some obs := by
  unfold observationOf
  cases h : byCall.get? callId with
  | none => simp
  | some obs' => simp

/-- What is staged at the deferred positions is the strategy's content, in the order it came. -/
theorem contents_ok {toolCalls : List ToolCall} {byCall : Dict String (ToolObservation γ)}
    {positions : List ℕ} {produced : List (ToolObservation γ)} {staged : List (ℕ × γ)}
    (hids : positions.mapM (callIdAt toolCalls) = .ok (produced.map (·.callId)))
    (hby : ∀ obs ∈ produced, byCall.get? obs.callId = some obs)
    (h : positions.mapM (contentAt toolCalls byCall) = .ok staged) :
    staged = positions.zip (produced.map (·.content)) := by
  rw [Fallible.mapM_ok] at hids h
  induction positions generalizing produced staged with
  | nil =>
    rw [List.map_nil] at h
    rw [List.map_eq_nil_iff.mp h.symm, List.zip_nil_left]
  | cons i rest ih =>
    cases produced with
    | nil => simp at hids
    | cons obs produced =>
      cases staged with
      | nil => simp at h
      | cons e staged =>
        simp only [List.map_cons, List.cons.injEq] at hids h
        obtain ⟨hid, hids⟩ := hids
        obtain ⟨hcontent, h⟩ := h
        rw [contentAt, hid] at hcontent
        have hobs := observationOf_ok.mpr (hby obs List.mem_cons_self)
        simp only [bind, Except.bind, hobs, Except.ok.injEq] at hcontent
        rw [← hcontent, List.map_cons, List.zip_cons_cons,
          ih hids (fun o ho => hby o (List.mem_cons_of_mem _ ho)) h]

theorem mem_occurrencesOf {results : List VendorVisibleResult} {o : String}
    (h : o ∈ occurrencesOf results) : ∃ r ∈ results, r.sourceOccurrenceId = some o := by
  have hmem := (List.mem_filter.mp (mem_fromKeys.mp h)).1
  obtain ⟨r, hr, ho⟩ := List.mem_filterMap.mp hmem
  exact ⟨r, hr, ho⟩

theorem claimedBy_ok {checkpoint : HCheckpoint} {byCall : Dict String (ToolObservation γ)}
    {callId : String} {e : String × List String} (h : claimedBy checkpoint byCall callId = .ok e) :
    e.1 = callId ∧ ∀ o ∈ e.2, Offered checkpoint callId o := by
  obtain ⟨obs, -, h⟩ := Fallible.bind_ok.mp h
  dsimp only at h
  split at h
  · rename_i hknown
    cases h
    refine ⟨rfl, ?_⟩
    intro o ho
    have hin : o ∈ ((offeredOccurrences checkpoint).get? callId).getD [] := by
      by_contra hout
      have hmem : o ∈ (fromKeys (obs.sourceOccurrenceIds.filter (· ≠ ""))).filter
          (· ∉ ((offeredOccurrences checkpoint).get? callId).getD []) :=
        List.mem_filter.mpr ⟨ho, decide_eq_true hout⟩
      rw [← List.mem_insertionSort (· ≤ ·), hknown] at hmem
      cases hmem
    cases hget : (offeredOccurrences checkpoint).get? callId with
    | none =>
      rw [hget] at hin
      cases hin
    | some occurrences =>
      rw [hget] at hin
      obtain ⟨entry, hentry, heq⟩ := List.mem_map.mp (Dict.mem_of_get?_ofPairs hget)
      cases heq
      exact ⟨entry.2, hentry, mem_occurrencesOf hin⟩
  · cases h

/-- A staged batch carries the strategy's content throughout. -/
theorem stageBatch_ok {h : Hashing γ} {strategy : HCheckpoint → Transform γ} {checkpoint : HCheckpoint}
    {observations : List (Observation γ)} {toolCalls : List ToolCall} {outcome : BatchOutcome γ}
    (hstage : stageBatch h strategy checkpoint observations toolCalls = .ok outcome) :
    ∃ produced, strategy checkpoint = .returned produced ∧
      produced.map (·.callId) = (deferredCalls observations toolCalls).map (·.callId) ∧
      outcome.observations = carrying observations (produced.map (·.content)) ∧
      outcome.failure = none ∧ outcome.fellBack = false ∧
      ∀ e ∈ outcome.publicationProvenance, ∀ o ∈ e.2, Offered checkpoint e.1 o := by
  obtain ⟨produced, hproduced, hstage⟩ := Fallible.bind_ok.mp hstage
  obtain ⟨expected, hexpected, hstage⟩ := Fallible.bind_ok.mp hstage
  dsimp only at hstage
  split at hstage
  · cases hstage
  · rename_i hmatch
    push Not at hmatch
    obtain ⟨hids, hnodup⟩ := hmatch
    obtain ⟨provenance, hprovenance, hstage⟩ := Fallible.bind_ok.mp hstage
    obtain ⟨staged, hstaged, hstage⟩ := Fallible.bind_ok.mp hstage
    cases hstage
    have htransform : strategy checkpoint = .returned produced := by
      cases htr : strategy checkpoint with
      | returned ps =>
        rw [htr] at hproduced
        cases hproduced
        rfl
      | cancelled => simp [htr, awaitTransform] at hproduced
      | handleDomainError message => simp [htr, awaitTransform] at hproduced
      | raised e => simp [htr, awaitTransform] at hproduced
    subst hids
    have hby : ∀ obs ∈ produced,
        (Dict.ofPairs (produced.map fun obs => (obs.callId, obs))).get? obs.callId = some obs := by
      intro obs hobs
      refine (Dict.get?_ofPairs_of_nodup ?_).mpr (List.mem_map.mpr ⟨obs, hobs, rfl⟩)
      rw [List.map_map]
      exact hnodup
    have hzip := contents_ok hexpected hby hstaged
    have hlen : (produced.map (·.content)).length = (deferredRenderings observations).length := by
      have hpos := congrArg List.length (Fallible.mapM_ok.mp hexpected)
      simp only [List.length_map] at hpos ⊢
      rw [← hpos]
      exact positionsFrom_length 0 observations
    refine ⟨produced, htransform, callIds_from [] toolCalls observations hexpected, ?_, rfl, rfl, ?_⟩
    · rw [hzip]
      exact assignAt_positions observations hlen
    · intro e he o ho
      have hmap := Fallible.mapM_ok.mp hprovenance
      have hin : Except.ok e ∈ (produced.map (·.callId)).map
          (claimedBy checkpoint (Dict.ofPairs (produced.map fun obs => (obs.callId, obs)))) := by
        rw [hmap]
        exact List.mem_map_of_mem he
      obtain ⟨callId, -, hclaimed⟩ := List.mem_map.mp hin
      obtain ⟨hfst, hoffered⟩ := claimedBy_ok hclaimed
      rw [hfst]
      exact hoffered o ho

/-- What `gather` hands back on success is the value of every closure. -/
theorem gather_ok {tasks : List (Rendering γ)} {values : List γ} (h : gather tasks = .ok values) :
    tasks.map (·.result) = values.map .ok := by
  unfold gather at h
  split at h
  · cases h
  · exact Fallible.mapM_ok.mp h

theorem gather_error {tasks : List (Rendering γ)} {e : PyException} (h : gather tasks = .error e) :
    ∃ r ∈ tasks, r.result = .error e := by
  unfold gather at h
  split at h
  · rename_i failed hmin
    cases h
    obtain ⟨r, hr, he⟩ := List.mem_filterMap.mp (List.argmin_mem hmin)
    refine ⟨r, hr, ?_⟩
    unfold Rendering.error? at he
    split at he
    · cases he
    · rename_i e' hres
      cases he
      exact hres
  · obtain ⟨r, hr, he⟩ := Fallible.mapM_error h
    exact ⟨r, hr, he⟩

theorem resolveFailure_cases (h : Hashing γ) (failure : PageFailure) (observations : List (Observation γ))
    (toolCalls : List ToolCall) (transform : Transform γ) (checkpoint : HCheckpoint)
    (componentTrial : Bool) :
    (∃ e, resolveFailure h failure observations checkpoint componentTrial = .error e ∧
      Aborted observations toolCalls transform componentTrial e) ∨
    ∃ outcome, resolveFailure h failure observations checkpoint componentTrial = .ok outcome ∧
      Uniform observations toolCalls transform componentTrial outcome ∧
      ∀ e ∈ outcome.publicationProvenance, ∀ o ∈ e.2, Offered checkpoint e.1 o := by
  cases componentTrial with
  | true =>
    refine .inr ⟨_, rfl, .failed rfl rfl rfl rfl, ?_⟩
    intro e he
    cases he
  | false =>
    cases hgather : gather (deferredRenderings observations) with
    | error e =>
      obtain ⟨r, hr, he⟩ := gather_error hgather
      refine .inl ⟨.renderVendor e, ?_, .renderVendor e rfl r hr he⟩
      simp [resolveFailure, hgather]
    | ok rendered =>
      have hresults := gather_ok hgather
      have hlen : rendered.length = (deferredRenderings observations).length := by
        simpa using (congrArg List.length hresults).symm
      have hrun : resolveFailure h failure observations checkpoint false = .ok
          { observations := assignAt observations ((deferredPositions observations).zip rendered)
            checkpointDigest := h.digest checkpoint
            fellBack := true
            failure := some failure
            publicationProvenance :=
              checkpoint.searchResultSets.map fun e => (e.1, occurrencesOf e.2) } := by
        simp [resolveFailure, hgather]
      refine .inr ⟨_, hrun, .fellBack rfl rendered hresults (assignAt_positions observations hlen) rfl rfl, ?_⟩
      intro e he o ho
      obtain ⟨entry, hentry, rfl⟩ := List.mem_map.mp he
      exact ⟨entry.2, hentry, mem_occurrencesOf ho⟩

theorem callIdAt_error {toolCalls : List ToolCall} {i : ℕ} {stop : Stop}
    (h : callIdAt toolCalls i = .error stop) : stop = .raised .indexError ∧ toolCalls.length ≤ i := by
  unfold callIdAt at h
  split at h
  · rename_i hnone
    cases h
    exact ⟨rfl, List.getElem?_eq_none_iff.mp hnone⟩
  · cases h

theorem claimedBy_error {checkpoint : HCheckpoint} {byCall : Dict String (ToolObservation γ)}
    {callId : String} {obs : ToolObservation γ} {stop : Stop} (hby : byCall.get? callId = some obs)
    (h : claimedBy checkpoint byCall callId = .error stop) : ∃ failure, stop = .failed failure := by
  rcases Fallible.bind_error.mp h with hobs | ⟨obs', -, h⟩
  · rw [observationOf_ok.mpr hby] at hobs
    cases hobs
  · dsimp only at h
    split at h
    · cases h
    · cases h
      exact ⟨_, rfl⟩

/-- A staged batch that raises was cancelled, met the frozen handle domain's bounds, or had no call. -/
theorem stageBatch_raised {h : Hashing γ} {strategy : HCheckpoint → Transform γ}
    {checkpoint : HCheckpoint} {observations : List (Observation γ)} {toolCalls : List ToolCall}
    {e : BatchRaised} (componentTrial : Bool)
    (hstage : stageBatch h strategy checkpoint observations toolCalls = .error (.raised e)) :
    Aborted observations toolCalls (strategy checkpoint) componentTrial e := by
  rcases Fallible.bind_error.mp hstage with hawait | ⟨produced, -, hstage⟩
  · cases htr : strategy checkpoint with
    | returned ps => simp [htr, awaitTransform] at hawait
    | cancelled =>
      simp only [htr, awaitTransform, Except.error.injEq, Stop.raised.injEq] at hawait
      subst hawait
      exact .cancelled rfl
    | handleDomainError message =>
      simp only [htr, awaitTransform, Except.error.injEq, Stop.raised.injEq] at hawait
      subst hawait
      exact .handleDomainError message rfl
    | raised e' => simp [htr, awaitTransform] at hawait
  · rcases Fallible.bind_error.mp hstage with hids | ⟨expected, hexpected, hstage⟩
    · obtain ⟨i, hi, hcall⟩ := Fallible.mapM_error hids
      obtain ⟨hraised, hle⟩ := callIdAt_error hcall
      cases hraised
      have hlt := lt_of_mem_positionsFrom (n := 0) hi
      exact .indexError (by omega)
    · dsimp only at hstage
      split at hstage
      · cases hstage
      · rename_i hmatch
        push Not at hmatch
        obtain ⟨rfl, hnodup⟩ := hmatch
        have hby : ∀ obs ∈ produced,
            (Dict.ofPairs (produced.map fun obs => (obs.callId, obs))).get? obs.callId = some obs := by
          intro obs hobs
          refine (Dict.get?_ofPairs_of_nodup ?_).mpr (List.mem_map.mpr ⟨obs, hobs, rfl⟩)
          rw [List.map_map]
          exact hnodup
        rcases Fallible.bind_error.mp hstage with hclaimed | ⟨provenance, -, hstage⟩
        · obtain ⟨callId, hcallId, hclaimed⟩ := Fallible.mapM_error hclaimed
          obtain ⟨obs, hobs, rfl⟩ := List.mem_map.mp hcallId
          obtain ⟨failure, hfailed⟩ := claimedBy_error (hby obs hobs) hclaimed
          cases hfailed
        · rcases Fallible.bind_error.mp hstage with hcontent | ⟨staged, -, hstage⟩
          · obtain ⟨i, hi, hcontent⟩ := Fallible.mapM_error hcontent
            have hmem : callIdAt toolCalls i ∈
                (deferredPositions observations).map (callIdAt toolCalls) := List.mem_map_of_mem hi
            rw [Fallible.mapM_ok.mp hexpected] at hmem
            obtain ⟨callId, hcallId, hcall⟩ := List.mem_map.mp hmem
            obtain ⟨obs, hobs, rfl⟩ := List.mem_map.mp hcallId
            rw [contentAt, ← hcall] at hcontent
            simp [bind, Except.bind, observationOf_ok.mpr (hby obs hobs)] at hcontent
          · cases hstage

theorem reduceStored_uniform (h : Hashing γ) (strategy : HCheckpoint → Transform γ)
    (checkpoint : HCheckpoint) (observations : List (Observation γ)) (toolCalls : List ToolCall)
    (componentTrial : Bool) :
    (∃ e, reduceStored h strategy checkpoint observations toolCalls componentTrial = .error e ∧
      Aborted observations toolCalls (strategy checkpoint) componentTrial e) ∨
    ∃ outcome, reduceStored h strategy checkpoint observations toolCalls componentTrial = .ok outcome ∧
      Uniform observations toolCalls (strategy checkpoint) componentTrial outcome ∧
      ∀ e ∈ outcome.publicationProvenance, ∀ o ∈ e.2, Offered checkpoint e.1 o := by
  unfold reduceStored
  split
  · rename_i hnone
    refine .inr ⟨_, rfl, .untouched ?_ rfl rfl rfl, ?_⟩
    · have hlen := positionsFrom_length 0 observations
      apply List.eq_nil_of_length_eq_zero
      rw [← hlen]
      exact congrArg List.length hnone
    · intro e he
      cases he
  · cases hstage : stageBatch h strategy checkpoint observations toolCalls with
    | ok outcome =>
      obtain ⟨produced, htr, hids, hobs, hfailure, hback, hprovenance⟩ := stageBatch_ok hstage
      exact .inr ⟨outcome, rfl, .published produced htr hids hobs hfailure hback, hprovenance⟩
    | error stop =>
      cases stop with
      | raised e => exact .inl ⟨e, rfl, stageBatch_raised componentTrial hstage⟩
      | failed failure =>
        exact resolveFailure_cases h failure observations toolCalls (strategy checkpoint) checkpoint
          componentTrial

end

/-! ## A turn that raises -/

/-- Hashes spelled out, for fixed inputs. -/
def Hashing.plain : Hashing String where
  ofText := id
  ofStr := id
  ofCanonical value := .ok value
  digest checkpoint := checkpoint.taskId

/-- A search call whose vendor rendering ends in `result`. -/
def searched (result : Except PyException String) : Observation String :=
  .deferred ⟨"tavily_search", [{ url := "https://a", occurrenceId := some "o1" }], ⟨0, result⟩, 100⟩

def oneSearch : List ToolCall := [⟨some "c1", some "tavily_search", "\x7b\x7d"⟩]

def oneCheckpoint : HCheckpoint :=
  buildHCheckpoint .plain "t" "r" 0 "" oneSearch [searched (.ok "vendor")] "s" "m" none

end Shapeflow.ToolBatch
