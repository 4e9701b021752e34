import Shapeflow.Publication
import Shapeflow.ToolBatchUniform

set_option autoImplicit false

/-!
# Committed provenance is exact and append-only

An entry is committed by a certified batch and by nothing else, and what was
committed stays as it is whatever is called later.
-/
namespace Shapeflow.Publication
open Script ToolBatch

section
variable {γ : Type} {h : Hashing γ}

/-- The committed entry of a call id. -/
def committedEntry (s : Sidecar) (callId : String) : Option ProvenanceEntry :=
  s.published.bind fun committed => committed.get? callId

/-- `pending` is the batch that the call `call` of the reducer left behind. -/
def Reduced (h : Hashing γ) (call : ReduceCall γ) (pending : PendingPublication) : Prop :=
  ∃ run page outcome digests, call.run = some run ∧ call.page = some page ∧
    outcomeOf h run page call = .ok outcome ∧
    outcome.observations.mapM (observationSha h) = .ok digests ∧
    pending = pendingOf call outcome digests

theorem ofExcept_error {ε α : Type} {wrap : ε → PublishRaised} {e : ε} (s : Sidecar) :
    (ofExcept wrap (.error e) : Script Sidecar PublishRaised α) s = (.error (wrap e), s) := rfl

theorem ofExcept_ok {ε α : Type} {wrap : ε → PublishRaised} {a : α} (s : Sidecar) :
    (ofExcept wrap (.ok a) : Script Sidecar PublishRaised α) s = (.ok a, s) := rfl

/-- The reducer never touches the committed entries, and leaves pending the batch it reduced. -/
theorem reduceBound_after (h : Hashing γ) {run : RunBinding}
    {page : List (Observation γ) → HCheckpoint → Transform γ} {call : ReduceCall γ}
    (hrun : call.run = some run) (hpage : call.page = some page) (s : Sidecar) :
    (reduceBound h run page call).after s = s ∨
      ∃ pending, Reduced h call pending ∧
        (reduceBound h run page call).after s = { s with pending := some pending } := by
  unfold reduceBound
  cases hout : outcomeOf h run page call with
  | error e => exact .inl (after_bind_of_error (ofExcept_error s))
  | ok outcome =>
    rw [after_bind_of_ok (ofExcept_ok s)]
    split
    · exact .inl rfl
    · cases hdigests : outcome.observations.mapM (observationSha h) with
      | error e => exact .inl (after_bind_of_error (ofExcept_error s))
      | ok digests =>
        exact .inr ⟨pendingOf call outcome digests,
          ⟨run, page, outcome, digests, hrun, hpage, hout, hdigests, rfl⟩, rfl⟩

theorem reducePublishedBatch_after (h : Hashing γ) (call : ReduceCall γ) (s : Sidecar) :
    (reducePublishedBatch h call).after s = s ∨
      ∃ pending, Reduced h call pending ∧
        (reducePublishedBatch h call).after s = { s with pending := some pending } := by
  unfold reducePublishedBatch
  split
  · rename_i run page hrun hpage
    split
    · exact reduceBound_after h hrun hpage s
    · exact .inl rfl
  · exact .inl rfl

/-- What a recording call does: nothing without a pending batch; otherwise the batch is pending no
    more, and its entries are committed exactly when the call returns. -/
inductive Recorded (h : Hashing γ) (toolCalls : List ToolCall) (toolOutputs : List (ToolMessage γ))
    (s : Sidecar) : Except PublishRaised Unit → Sidecar → Prop
  | idle (hnone : s.pending = none) : Recorded h toolCalls toolOutputs s (.ok ()) s
  | rejected (e : PublishRaised) :
      Recorded h toolCalls toolOutputs s (.error e) { s with pending := none }
  | committed (pending : PendingPublication) (digests : List String)
      (old : Dict String ProvenanceEntry) (hpending : s.pending = some pending)
      (hold : s.published = some old)
      (hdigests : toolOutputs.mapM (fun output => h.ofCanonical output.content) = .ok digests)
      (hcertified : Certified pending toolCalls toolOutputs digests)
      (hclear : ∀ e ∈ (stagedEntries pending (toolCalls.map (·.callId))
        (toolOutputs.map (·.messageName)) digests).entries, ¬ Conflicts old e) :
      Recorded h toolCalls toolOutputs s (.ok ())
        { pending := none
          published := some (old.updateAll (stagedEntries pending (toolCalls.map (·.callId))
            (toolOutputs.map (·.messageName)) digests)) }

theorem setPending_run (pending : Option PendingPublication) (s : Sidecar) :
    setPending pending s = (.ok (), { s with pending }) := rfl

theorem recorded (h : Hashing γ) (toolCalls : List ToolCall) (toolOutputs : List (ToolMessage γ))
    (s : Sidecar) :
    Recorded h toolCalls toolOutputs s (recordToolBatchPublication h toolCalls toolOutputs s).1
      (recordToolBatchPublication h toolCalls toolOutputs s).2 := by
  unfold recordToolBatchPublication
  rw [getStore_bind]
  cases hpending : s.pending with
  | none => exact .idle hpending
  | some pending =>
    dsimp only
    unfold recordPending
    rw [bind_of_ok (setPending_run none s)]
    cases hdigests : toolOutputs.mapM fun output => h.ofCanonical output.content with
    | error e =>
      rw [bind_of_error (ofExcept_error _)]
      exact .rejected _
    | ok digests =>
      rw [bind_of_ok (ofExcept_ok _)]
      split
      · exact .rejected _
      · rename_i hcertified
        split
        · exact .rejected _
        · unfold commitEntries
          rw [getStore_bind]
          cases hold : s.published with
          | none =>
            have hrejected : Recorded h toolCalls toolOutputs s
                (.error (.runtimeError "no run-scoped provenance sidecar is bound"))
                { s with pending := none } := .rejected _
            rw [hold] at hrejected
            exact hrejected
          | some old =>
            dsimp only
            split
            · have hrejected : Recorded h toolCalls toolOutputs s
                  (.error (.runtimeError "published tool_call_id was reused"))
                  { s with pending := none } := .rejected _
              rw [hold] at hrejected
              exact hrejected
            · rename_i hclear
              push Not at hclear
              exact .committed pending digests old hpending hold hdigests (not_not.mp hcertified) hclear

/-- A recording call that raises leaves the committed entries as they were. -/
theorem record_rejected {toolCalls : List ToolCall} {toolOutputs : List (ToolMessage γ)} {s t : Sidecar}
    {e : PublishRaised} (hrun : recordToolBatchPublication h toolCalls toolOutputs s = (.error e, t)) :
    t.published = s.published := by
  have hrec := recorded h toolCalls toolOutputs s
  rw [hrun] at hrec
  cases hrec
  rfl

/-- The entry of message number `i` of a certified batch. -/
structure EntryOf (pending : PendingPublication) (toolCalls : List ToolCall)
    (toolOutputs : List (ToolMessage γ)) (callId : String) (entry : ProvenanceEntry) : Prop where
  position : ∃ (i : ℕ) (call : ToolCall) (message : ToolMessage γ), toolCalls[i]? = some call ∧ call.callId = callId ∧
    toolOutputs[i]? = some message ∧ message.messageName = call.callName ∧ entry.name = call.callName ∧
    pending.observationSha256s[i]? = some entry.contentSha256
  checkpoint : entry.checkpoint = pending.checkpoint
  occurrences : entry.sourceOccurrenceIds = ((provenanceByCall pending).get? callId).getD []

theorem staged_entry {pending : PendingPublication} {toolCalls : List ToolCall}
    {toolOutputs : List (ToolMessage γ)} {digests : List String} {callId : String}
    {entry : ProvenanceEntry} (hcertified : Certified pending toolCalls toolOutputs digests)
    (hentry : (stagedEntries pending (toolCalls.map (·.callId)) (toolOutputs.map (·.messageName))
      digests).get? callId = some entry) : EntryOf pending toolCalls toolOutputs callId entry := by
  obtain ⟨e, he, heq⟩ := List.mem_map.mp (Dict.mem_of_get?_ofPairs hentry)
  cases heq
  obtain ⟨i, hi⟩ := List.mem_iff_getElem?.mp he
  obtain ⟨hid, hrest⟩ := List.getElem?_zip_eq_some.mp hi
  obtain ⟨hname, hdigest⟩ := List.getElem?_zip_eq_some.mp hrest
  have hnames : (toolCalls.map (·.callName))[i]? = some e.2.1 := by
    rw [← hcertified.outputNames]
    exact hname
  rw [List.getElem?_map] at hid hname hnames
  obtain ⟨call, hcall, hcallId⟩ := Option.map_eq_some_iff.mp hid
  obtain ⟨message, hmessage, hmessageName⟩ := Option.map_eq_some_iff.mp hname
  rw [hcall, Option.map_some, Option.some.injEq] at hnames
  refine ⟨⟨i, call, message, hcall, hcallId, hmessage, ?_, ?_, ?_⟩, rfl, rfl⟩
  · rw [hmessageName, hnames]
  · exact hnames.symm
  · rw [← hcertified.contents]
    exact hdigest

/-- One call keeps every committed entry. -/
theorem entry_kept (h : Hashing γ) (s : Sidecar) (call : Call γ) {callId : String}
    {entry : ProvenanceEntry} (hentry : committedEntry s callId = some entry) :
    committedEntry (step h s call) callId = some entry := by
  cases call with
  | reduce call =>
    rcases reducePublishedBatch_after h call s with hsame | ⟨pending, -, hsame⟩
    · change committedEntry ((reducePublishedBatch h call).after s) callId = _
      rw [hsame]
      exact hentry
    · change committedEntry ((reducePublishedBatch h call).after s) callId = _
      rw [hsame]
      exact hentry
  | record toolCalls toolOutputs =>
    have hrec := recorded h toolCalls toolOutputs s
    change committedEntry (recordToolBatchPublication h toolCalls toolOutputs s).2 callId = _
    generalize (recordToolBatchPublication h toolCalls toolOutputs s).1 = r at hrec
    generalize (recordToolBatchPublication h toolCalls toolOutputs s).2 = t at hrec
    cases hrec with
    | idle hnone => exact hentry
    | rejected e => exact hentry
    | committed pending digests old hpending hold hdigests hcertified hclear =>
      have hget : old.get? callId = some entry := by
        simpa [committedEntry, hold] using hentry
      change (old.updateAll _).get? callId = some entry
      rw [Dict.get?_updateAll]
      cases hstaged : (stagedEntries pending (toolCalls.map (·.callId))
          (toolOutputs.map (·.messageName)) digests).get? callId with
      | none => exact hget
      | some new =>
        -- a staged entry for a committed id is the committed one, or the batch was refused
        have hsame : old.get? callId = some new := by
          by_contra hne
          exact hclear (callId, new) (Dict.mem_of_get? hstaged)
            ⟨Dict.mem_keys_iff.mpr ⟨entry, hget⟩, hne⟩
        rw [Option.some_or, ← hsame]
        exact hget

theorem entry_kept_run (h : Hashing γ) {s : Sidecar} (calls : List (Call γ)) {callId : String}
    {entry : ProvenanceEntry} (hentry : committedEntry s callId = some entry) :
    committedEntry (Run.run (step h) s calls) callId = some entry :=
  Run.invariant_all (I := fun s => committedEntry s callId = some entry)
    (fun s call hs => entry_kept h s call hs) calls hentry

/-- A call that adds an entry certified the batch that was pending. -/
theorem entry_new (h : Hashing γ) (s : Sidecar) (call : Call γ) {callId : String}
    {entry : ProvenanceEntry} (hnew : committedEntry (step h s call) callId = some entry)
    (hold : committedEntry s callId = none) :
    ∃ toolCalls toolOutputs pending digests, call = .record toolCalls toolOutputs ∧
      s.pending = some pending ∧
      toolOutputs.mapM (fun output => h.ofCanonical output.content) = .ok digests ∧
      Certified pending toolCalls toolOutputs digests ∧
      EntryOf pending toolCalls toolOutputs callId entry := by
  cases call with
  | reduce call =>
    have hsame : committedEntry (step h s (.reduce call)) callId = committedEntry s callId := by
      change committedEntry ((reducePublishedBatch h call).after s) callId = _
      rcases reducePublishedBatch_after h call s with hsame | ⟨pending, -, hsame⟩
      · rw [hsame]
      · rw [hsame]
        rfl
    rw [hsame, hold] at hnew
    cases hnew
  | record toolCalls toolOutputs =>
    have hrec := recorded h toolCalls toolOutputs s
    change committedEntry (recordToolBatchPublication h toolCalls toolOutputs s).2 callId = _ at hnew
    generalize (recordToolBatchPublication h toolCalls toolOutputs s).1 = r at hrec
    generalize (recordToolBatchPublication h toolCalls toolOutputs s).2 = t at hrec hnew
    cases hrec with
    | idle hnone =>
      rw [hold] at hnew
      cases hnew
    | rejected e =>
      change committedEntry s callId = _ at hnew
      rw [hold] at hnew
      cases hnew
    | committed pending digests old hpending hpublished hdigests hcertified hclear =>
      have hnone : old.get? callId = none := by
        simpa [committedEntry, hpublished] using hold
      change (old.updateAll _).get? callId = some entry at hnew
      rw [Dict.get?_updateAll, hnone, Option.or_none] at hnew
      exact ⟨toolCalls, toolOutputs, pending, digests, rfl, hpending, hdigests, hcertified,
        staged_entry hcertified hnew⟩

/-! ## Histories -/

/-- A batch that is pending was reduced by a call of the history. -/
theorem pending_reduced (h : Hashing γ) (published : Option (Dict String ProvenanceEntry))
    (calls : List (Call γ)) {pending : PendingPublication}
    (hpending : (Run.run (step h) ⟨none, published⟩ calls).pending = some pending) :
    ∃ call, .reduce call ∈ calls ∧ Reduced h call pending := by
  induction calls using List.reverseRecOn with
  | nil => cases hpending
  | append_singleton calls call ih =>
    rw [Run.run_append] at hpending
    have hbefore : (∃ earlier, .reduce earlier ∈ calls ∧ Reduced h earlier pending) →
        ∃ earlier, .reduce earlier ∈ calls ++ [call] ∧ Reduced h earlier pending := by
      rintro ⟨earlier, hmem, hreduced⟩
      exact ⟨earlier, List.mem_append_left _ hmem, hreduced⟩
    cases call with
    | reduce call =>
      change ((reducePublishedBatch h call).after _).pending = _ at hpending
      rcases reducePublishedBatch_after h call (Run.run (step h) ⟨none, published⟩ calls) with
        hsame | ⟨left, hreduced, hsame⟩
      · rw [hsame] at hpending
        exact hbefore (ih hpending)
      · rw [hsame] at hpending
        cases hpending
        exact ⟨call, by simp, hreduced⟩
    | record toolCalls toolOutputs =>
      have hrec := recorded h toolCalls toolOutputs (Run.run (step h) ⟨none, published⟩ calls)
      change (recordToolBatchPublication h toolCalls toolOutputs _).2.pending = _ at hpending
      generalize (recordToolBatchPublication h toolCalls toolOutputs _).1 = r at hrec
      generalize (recordToolBatchPublication h toolCalls toolOutputs _).2 = t at hrec hpending
      cases hrec with
      | idle hnone => exact hbefore (ih hpending)
      | rejected e => cases hpending
      | committed p digests old _ _ _ _ _ => cases hpending

end

/-! ## Names -/

/-- The reducer's call on one search, with the strategy returning one observation. -/
def reduceOne : Call String :=
  .reduce
    { run := some ⟨"t", "r", false, none, none, none⟩
      page := some fun _ _ => .returned [⟨some "c1", "tavily_search", "selected", ["o1"]⟩]
      assistantMessage := "", toolCalls := oneSearch, observations := [searched (.ok "vendor")]
      researcherStateHash := "s", assistantTurnIndex := 0 }

/-- The recording of that batch under another tool name. -/
def recordRenamed : Call String :=
  .record [⟨some "c1", some "web_search", "\x7b\x7d"⟩] [⟨some "c1", some "web_search", "selected"⟩]

end Shapeflow.Publication
