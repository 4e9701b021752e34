import Shapeflow.Checkpoints

set_option autoImplicit false

/-!
# Checkpoints come back

The text of a checkpoint's document is read as the checkpoint, the order of keys in
its values apart; a document that was accepted with its digest is written with it again.
-/
namespace Shapeflow.Checkpoints
open Py Canonical

/-! ## Reading the writer's documents -/

/-- A change of values that readers of documents see field by field. -/
structure Keeps (f : Json → Json) : Prop where
  null : f .null = .null
  int : ∀ n, f (.int n) = .int n
  str : ∀ s, f (.str s) = .str s
  arr : ∀ vs, f (.arr vs) = .arr (vs.map f)
  item : ∀ fields, DistinctFields fields → ∀ key,
    (f (document fields)).item key = (field? fields key).elim (.error .keyError) fun v => .ok (f v)
  get : ∀ fields, DistinctFields fields → ∀ key default,
    (f (document fields)).get (pyStr key) default = .ok (((field? fields key).map f).getD default)

theorem keeps_id : Keeps id where
  null := rfl
  int _ := rfl
  str _ := rfl
  arr vs := by rw [List.map_id]; rfl
  item fields _ key := item_document fields key
  get fields _ key default := by
    rw [Option.map_id]
    exact get_document fields key default

theorem keeps_sortKeys : Keeps sortKeys where
  null := rfl
  int _ := rfl
  str _ := rfl
  arr := sortKeys_arr
  item _ h := item_sortKeys h
  get _ h := get_sortKeys h

/-! The same checkpoint with its values changed. -/

def SamplingEnvelope.map (f : Json → Json) (s : SamplingEnvelope) : SamplingEnvelope :=
  ⟨f s.model, f s.temperature, f s.topP, f s.maxTokens, f s.n, f s.seed⟩

def FrozenToolCall.map (f : Json → Json) (tc : FrozenToolCall) : FrozenToolCall :=
  ⟨f tc.id, f tc.name, f tc.argsCanonical⟩

def FrozenMessage.map (f : Json → Json) (m : FrozenMessage) : FrozenMessage :=
  ⟨f m.role, f m.content, m.toolCalls.map (·.map f), f m.name, f m.toolCallId, f m.messageId,
    f m.additionalKwargsCanonical, f m.responseMetadataCanonical, f m.usageMetadataCanonical,
    f m.artifactCanonical, f m.invalidToolCallsCanonical, f m.status⟩

def VendorVisibleResult.map (f : Json → Json) (r : VendorVisibleResult) : VendorVisibleResult :=
  ⟨f r.vendorVisibleOrder, f r.url, f r.title, f r.snippet, f r.rawContentId, f r.sourceOccurrenceId⟩

def HCheckpoint.map (f : Json → Json) (c : HCheckpoint) : HCheckpoint :=
  ⟨f c.taskId, f c.researcherId, f c.assistantTurnIndex, c.assistantMessage.map f, c.siblingToolCalls.map (·.map f),
    c.searchResultSets.map fun e => (f e.1, e.2.map (·.map f)), c.nonSearchOutputs.map fun e => (f e.1, f e.2),
    f c.researcherStateHash, c.sampling.map f, c.researcherCoordinate⟩

def CCheckpoint.map (f : Json → Json) (c : CCheckpoint) : CCheckpoint :=
  ⟨f c.taskId, f c.researcherId, c.researcherMessages.map (·.map f), ⟨c.evidenceManifest.spanIds.map f⟩,
    c.queryAttemptIds.map f, f c.closeReason, c.sampling.map f⟩

def Checkpoint.map (f : Json → Json) : Checkpoint → Checkpoint
  | .boundaryH checkpoint => .boundaryH (checkpoint.map f)
  | .boundaryC checkpoint => .boundaryC (checkpoint.map f)

theorem mapM_map {α β γ ε : Type} {read : β → Except ε γ} {write : α → β} {back : α → γ}
    (h : ∀ a, read (write a) = .ok (back a)) (xs : List α) : (xs.map write).mapM read = .ok (xs.map back) := by
  rw [Fallible.mapM_ok, List.map_map, List.map_map]
  exact List.map_congr_left fun a _ => h a

theorem orElse_arr (vs : List Json) : (Json.arr vs).orElse (.arr []) = .arr vs := by
  cases vs <;> rfl

section
variable {f : Json → Json} (hf : Keeps f)
include hf

theorem Keeps.arr_map {α : Type} (write : α → Json) (xs : List α) :
    f (.arr (xs.map write)) = .arr (xs.map fun a => f (write a)) := by
  rw [hf.arr, List.map_map]
  rfl

theorem toolCallFrom_content (tc : FrozenToolCall) : toolCallFrom (f tc.content) = .ok (tc.map f) := by
  have hitem := hf.item [("id", tc.id), ("name", tc.name), ("args", tc.argsCanonical)] (by simp [DistinctFields])
  simp [toolCallFrom, FrozenToolCall.content, hitem, field?_cons_ne, bind, Except.bind, pure, Except.pure,
    FrozenToolCall.map]

theorem messageFrom_content (m : FrozenMessage) : messageFrom (f m.contentDict) = .ok (m.map f) := by
  have hcalls := mapM_map (toolCallFrom_content hf) m.toolCalls
  have hdistinct : DistinctFields [("role", m.role), ("content", m.content),
      ("tool_calls", .arr (m.toolCalls.map (·.content))), ("name", m.name), ("tool_call_id", m.toolCallId),
      ("message_id", m.messageId), ("additional_kwargs", m.additionalKwargsCanonical),
      ("response_metadata", m.responseMetadataCanonical), ("usage_metadata", m.usageMetadataCanonical),
      ("artifact", m.artifactCanonical), ("invalid_tool_calls", m.invalidToolCallsCanonical),
      ("status", m.status)] := by simp [DistinctFields]
  have hitem := hf.item _ hdistinct
  have hget := hf.get _ hdistinct
  simp [messageFrom, FrozenMessage.contentDict, Json.listField, hitem, hget, field?_cons_ne, bind, Except.bind, pure,
    Except.pure, hf.arr_map, orElse_arr, toList, hcalls, FrozenMessage.map]

theorem samplingFrom_content (s : SamplingEnvelope) : samplingFrom (f s.content) = .ok (s.map f) := by
  have hdistinct : DistinctFields [("model", s.model), ("temperature", s.temperature), ("top_p", s.topP),
      ("max_tokens", s.maxTokens), ("n", s.n), ("seed", s.seed)] := by simp [DistinctFields]
  have hitem := hf.item _ hdistinct
  have hget := hf.get _ hdistinct
  simp [samplingFrom, SamplingEnvelope.content, hitem, hget, field?_cons_ne, bind, Except.bind, pure, Except.pure,
    SamplingEnvelope.map]

theorem resultFrom_content (r : VendorVisibleResult) : resultFrom (f r.content) = .ok (r.map f) := by
  have hdistinct : DistinctFields [("order", r.vendorVisibleOrder), ("url", r.url), ("title", r.title),
      ("snippet", r.snippet), ("raw_content_id", r.rawContentId),
      ("source_occurrence_id", r.sourceOccurrenceId)] := by simp [DistinctFields]
  have hitem := hf.item _ hdistinct
  have hget := hf.get _ hdistinct
  simp [resultFrom, VendorVisibleResult.content, hitem, hget, field?_cons_ne, bind, Except.bind, pure, Except.pure,
    VendorVisibleResult.map]

theorem resultSetFrom_content (e : Json × List VendorVisibleResult) :
    resultSetFrom (f (.arr [e.1, .arr (e.2.map (·.content))])) = .ok (f e.1, e.2.map (·.map f)) := by
  have hresults := mapM_map (resultFrom_content hf) e.2
  simp [resultSetFrom, toPair, toList, hf.arr, bind, Except.bind, pure, Except.pure, List.map_map,
    Function.comp_def, hresults]

theorem outputFrom_content (e : Json × Json) : outputFrom (f (.arr [e.1, e.2])) = .ok (f e.1, f e.2) := by
  simp [outputFrom, Json.at, hf.arr, bind, Except.bind, pure, Except.pure]

theorem coordinateFrom_content (codec : Codec) (coordinate : Option (ℤ × ℤ × PyStr)) :
    coordinateFrom codec (f (coordinateContent coordinate)) = .ok coordinate := by
  cases coordinate with
  | none =>
    rw [coordinateContent, Option.elim_none, hf.null]
    rfl
  | some c =>
    rw [coordinateContent, Option.elim_some, hf.arr]
    simp only [List.map_cons, List.map_nil, hf.int, hf.str]
    rfl

theorem hFrom_document (codec : Codec) (c : HCheckpoint) (digest : String) :
    hFrom codec (f (document (documentFields (.boundaryH c) digest))) = .ok (c.map f) := by
  have hdistinct : DistinctFields (documentFields (.boundaryH c) digest) := by
    simp [DistinctFields, documentFields, Checkpoint.fields, HCheckpoint.fields]
  have hitem : ∀ key v, field? (documentFields (.boundaryH c) digest) key = some v →
      (f (document (documentFields (.boundaryH c) digest))).item key = .ok (f v) := by
    intro key v hv
    rw [hf.item _ hdistinct, hv]
    rfl
  have hcoordinate := hf.get _ hdistinct "researcher_coordinate" .null
  generalize f (document (documentFields (.boundaryH c) digest)) = body at hitem hcoordinate
  simp only [documentFields, Checkpoint.fields, HCheckpoint.fields] at hitem hcoordinate
  have htask := hitem "task_id" c.taskId (by simp [field?_cons_ne])
  have hresearcher := hitem "researcher_id" c.researcherId (by simp [field?_cons_ne])
  have hturn := hitem "assistant_turn_index" c.assistantTurnIndex (by simp [field?_cons_ne])
  have hmessage := hitem "assistant_message" c.assistantMessage.contentDict (by simp [field?_cons_ne])
  have hsiblings := hitem "sibling_tool_calls" (.arr (c.siblingToolCalls.map (·.content))) (by simp [field?_cons_ne])
  have hsearch := hitem "search_result_sets"
    (.arr (c.searchResultSets.map fun e => .arr [e.1, .arr (e.2.map (·.content))])) (by simp [field?_cons_ne])
  have hother := hitem "non_search_outputs" (.arr (c.nonSearchOutputs.map fun e => .arr [e.1, e.2]))
    (by simp [field?_cons_ne])
  have hstate := hitem "researcher_state_hash" c.researcherStateHash (by simp [field?_cons_ne])
  have hsampling := hitem "sampling" c.sampling.content (by simp [field?_cons_ne])
  have hlast : body.get (pyStr "researcher_coordinate") .null = .ok (f (coordinateContent c.researcherCoordinate)) := by
    rw [hcoordinate]
    simp [field?_cons_ne]
  rw [hf.arr_map] at hsiblings hsearch hother
  have hsets := mapM_map (resultSetFrom_content hf) c.searchResultSets
  have houtputs := mapM_map (outputFrom_content hf) c.nonSearchOutputs
  have hcalls := mapM_map (toolCallFrom_content hf) c.siblingToolCalls
  simp only [hFrom, htask, hresearcher, hturn, hmessage, hsiblings, hsearch, hother, hstate, hsampling, hlast,
    Fallible.ok_bind, toList, hcalls, hsets, houtputs, messageFrom_content hf, samplingFrom_content hf, coordinateFrom_content hf]
  rfl

theorem cFrom_document (c : CCheckpoint) (digest : String) :
    cFrom (f (document (documentFields (.boundaryC c) digest))) = .ok (c.map f) := by
  have hdistinct : DistinctFields (documentFields (.boundaryC c) digest) := by
    simp [DistinctFields, documentFields, Checkpoint.fields, CCheckpoint.fields]
  have hitem := hf.item _ hdistinct
  have hspans := hf.item [("span_ids", .arr c.evidenceManifest.spanIds)] (by simp [DistinctFields])
  have hmessages := mapM_map (messageFrom_content hf) c.researcherMessages
  have hspanIds := hf.arr c.evidenceManifest.spanIds
  have hattemptIds := hf.arr c.queryAttemptIds
  simp only [cFrom, hitem]
  simp [documentFields, Checkpoint.fields, CCheckpoint.fields, EvidenceManifest.content, field?_cons_ne, bind,
    Except.bind, pure, Except.pure, hspanIds, hattemptIds, hf.arr_map, toList, hspans, hmessages,
    samplingFrom_content hf, CCheckpoint.map]

theorem rebuild_document (codec : Codec) (c : Checkpoint) (digest : String) :
    rebuild codec (f (document (documentFields c digest))) = .ok (c.map f) := by
  cases c with
  | boundaryH c =>
    have hdistinct : DistinctFields (documentFields (.boundaryH c) digest) := by
      simp [DistinctFields, documentFields, Checkpoint.fields, HCheckpoint.fields]
    have hkind : (f (document (documentFields (.boundaryH c) digest))).get (pyStr "kind") .null =
        .ok (.str (pyStr "H")) := by
      rw [hf.get _ hdistinct, documentFields, field?_cons_self, Option.map_some, hf.str]
      rfl
    unfold rebuild
    rw [hkind, hFrom_document hf]
    rfl
  | boundaryC c =>
    have hdistinct : DistinctFields (documentFields (.boundaryC c) digest) := by
      simp [DistinctFields, documentFields, Checkpoint.fields, CCheckpoint.fields]
    have hkind : (f (document (documentFields (.boundaryC c) digest))).get (pyStr "kind") .null =
        .ok (.str (pyStr "C")) := by
      rw [hf.get _ hdistinct, documentFields, field?_cons_self, Option.map_some, hf.str]
      rfl
    unfold rebuild
    rw [hkind, cFrom_document hf]
    rfl

theorem digest_document {c : Checkpoint} (digest : String) :
    (f (document (documentFields c digest))).get (pyStr "digest") .null = .ok (.str (pyStr digest)) := by
  have hdistinct : DistinctFields (documentFields c digest) := by
    cases c <;> simp [DistinctFields, documentFields, Checkpoint.fields, HCheckpoint.fields, CCheckpoint.fields]
  rw [hf.get _ hdistinct, documentFields, field?_cons_ne (by decide), field?_cons_self, Option.map_some, hf.str]
  rfl

end

/-! ## Values with sorted keys -/

theorem sameValue_arr {α : Type} {write write' : α → Json} (xs : List α) (h : ∀ a, SameValue (write a) (write' a)) :
    SameValue (.arr (xs.map write)) (.arr (xs.map write')) := by
  unfold SameValue
  rw [sortKeys_arr, sortKeys_arr, List.map_map, List.map_map]
  congr 1
  exact List.map_congr_left fun a _ => h a

theorem sameValue_toolCall (tc : FrozenToolCall) : SameValue (tc.map sortKeys).content tc.content := by
  apply sortKeys_document_congr
  simp [FrozenToolCall.map, sortKeys_idem]

theorem sameValue_toolCalls (calls : List FrozenToolCall) :
    sortKeys (.arr ((calls.map (·.map sortKeys)).map (·.content))) = sortKeys (.arr (calls.map (·.content))) := by
  rw [List.map_map]
  exact sameValue_arr calls sameValue_toolCall

theorem sameValue_message (m : FrozenMessage) : SameValue (m.map sortKeys).contentDict m.contentDict := by
  have hcalls := sameValue_toolCalls m.toolCalls
  apply sortKeys_document_congr
  simp only [FrozenMessage.map, List.map_cons, List.map_nil, sortKeys_idem, hcalls]

theorem sameValue_sampling (s : SamplingEnvelope) : SameValue (s.map sortKeys).content s.content := by
  apply sortKeys_document_congr
  simp [SamplingEnvelope.map, sortKeys_idem]

theorem sameValue_result (r : VendorVisibleResult) : SameValue (r.map sortKeys).content r.content := by
  apply sortKeys_document_congr
  simp [VendorVisibleResult.map, sortKeys_idem]

theorem sameValue_resultSet (e : Json × List VendorVisibleResult) :
    SameValue (.arr [sortKeys e.1, .arr ((e.2.map (·.map sortKeys)).map (·.content))])
      (.arr [e.1, .arr (e.2.map (·.content))]) := by
  have hresults := sameValue_arr e.2 sameValue_result
  unfold SameValue at hresults ⊢
  rw [sortKeys_arr, sortKeys_arr (_ :: _)]
  simp only [List.map_cons, List.map_nil, sortKeys_idem, List.map_map]
  rw [← hresults]
  rfl

theorem sameValue_output (e : Json × Json) : SameValue (.arr [sortKeys e.1, sortKeys e.2]) (.arr [e.1, e.2]) := by
  unfold SameValue
  rw [sortKeys_arr, sortKeys_arr]
  simp only [List.map_cons, List.map_nil, sortKeys_idem]

theorem sameValue_items (vs : List Json) : sortKeys (.arr (vs.map sortKeys)) = sortKeys (.arr vs) := by
  rw [sortKeys_arr, sortKeys_arr, List.map_map]
  congr 1
  exact List.map_congr_left fun v _ => sortKeys_idem v

/-- Sorting the keys of its values leaves a checkpoint's fields the same. -/
theorem sorted_fields (c : Checkpoint) :
    (c.map sortKeys).fields.map (fun e => (e.1, sortKeys e.2)) = c.fields.map fun e => (e.1, sortKeys e.2) := by
  cases c with
  | boundaryH c =>
    have hmessage : sortKeys (c.assistantMessage.map sortKeys).contentDict = sortKeys c.assistantMessage.contentDict :=
      sameValue_message c.assistantMessage
    have hsampling : sortKeys (c.sampling.map sortKeys).content = sortKeys c.sampling.content :=
      sameValue_sampling c.sampling
    have hsets := sameValue_arr c.searchResultSets sameValue_resultSet
    have houtputs := sameValue_arr c.nonSearchOutputs sameValue_output
    have hcalls := sameValue_toolCalls c.siblingToolCalls
    unfold SameValue at hsets houtputs
    simp only [Checkpoint.map, Checkpoint.fields, HCheckpoint.fields, HCheckpoint.map, List.map_cons, List.map_nil,
      sortKeys_idem, hmessage, hsampling, List.map_map, Function.comp_def] at hsets houtputs hcalls ⊢
    rw [hsets, houtputs, hcalls]
  | boundaryC c =>
    have hmessages := sameValue_arr c.researcherMessages sameValue_message
    have hsampling : sortKeys (c.sampling.map sortKeys).content = sortKeys c.sampling.content :=
      sameValue_sampling c.sampling
    have hmanifest : sortKeys (EvidenceManifest.content ⟨c.evidenceManifest.spanIds.map sortKeys⟩) =
        sortKeys c.evidenceManifest.content := by
      apply sortKeys_document_congr
      simp only [List.map_cons, List.map_nil, sameValue_items]
    unfold SameValue at hmessages
    simp only [Checkpoint.map, Checkpoint.fields, CCheckpoint.fields, CCheckpoint.map, List.map_cons, List.map_nil,
      sortKeys_idem, hsampling, hmanifest, sameValue_items, List.map_map, Function.comp_def] at hmessages ⊢
    rw [hmessages]

theorem sameValue_content (c : Checkpoint) : SameValue (c.map sortKeys).content c.content :=
  sortKeys_document_congr (sorted_fields c)

theorem kind_map (f : Json → Json) (c : Checkpoint) : (c.map f).kind = c.kind := by
  cases c <;> rfl

theorem sameValue_document (c : Checkpoint) (digest : String) :
    SameValue (document (documentFields (c.map sortKeys) digest)) (document (documentFields c digest)) := by
  apply sortKeys_document_congr
  rw [documentFields, documentFields, List.map_cons, List.map_cons, List.map_cons, List.map_cons, sorted_fields,
    kind_map]

/-! ## Equal checkpoints -/

/-- Equal values in every field, where dictionaries are compared without the order of their keys. -/
def Checkpoint.Equal (c c' : Checkpoint) : Prop := c.map sortKeys = c'.map sortKeys

theorem toolCall_map_map (f g : Json → Json) (tc : FrozenToolCall) :
    (tc.map f).map g = tc.map fun v => g (f v) := rfl

theorem message_map_map (f g : Json → Json) (m : FrozenMessage) : (m.map f).map g = m.map fun v => g (f v) := by
  simp [FrozenMessage.map, toolCall_map_map]

theorem result_map_map (f g : Json → Json) (r : VendorVisibleResult) :
    (r.map f).map g = r.map fun v => g (f v) := rfl

theorem sampling_map_map (f g : Json → Json) (s : SamplingEnvelope) :
    (s.map f).map g = s.map fun v => g (f v) := rfl

theorem map_map (f g : Json → Json) (c : Checkpoint) : (c.map f).map g = c.map fun v => g (f v) := by
  cases c with
  | boundaryH c =>
    simp [Checkpoint.map, HCheckpoint.map, message_map_map, toolCall_map_map, result_map_map, sampling_map_map,
      Function.comp_def]
  | boundaryC c =>
    simp [Checkpoint.map, CCheckpoint.map, message_map_map, sampling_map_map, Function.comp_def]

theorem message_map_id (m : FrozenMessage) : m.map id = m := by
  have hcalls : m.toolCalls.map (·.map id) = m.toolCalls := List.map_id m.toolCalls
  simp [FrozenMessage.map, hcalls]

theorem map_id (c : Checkpoint) : c.map id = c := by
  cases c with
  | boundaryH c =>
    have hcalls : c.siblingToolCalls.map (·.map id) = c.siblingToolCalls := List.map_id c.siblingToolCalls
    have hresults : ∀ rs : List VendorVisibleResult, rs.map (·.map id) = rs := fun rs => List.map_id rs
    simp [Checkpoint.map, HCheckpoint.map, message_map_id, SamplingEnvelope.map, hcalls, hresults]
  | boundaryC c =>
    have hmessages : c.researcherMessages.map (·.map id) = c.researcherMessages := by
      refine (List.map_congr_left fun m _ => message_map_id m).trans (List.map_id' _)
    simp [Checkpoint.map, CCheckpoint.map, SamplingEnvelope.map, hmessages]

theorem equal_sorted (c : Checkpoint) : (c.map sortKeys).Equal c := by
  unfold Checkpoint.Equal
  rw [map_map]
  simp only [sortKeys_idem]

/-! ## Round trips -/

/-- What was verified is what was rebuilt, with the digest that was recorded, if any. -/
theorem verified_ok {α : Type} {digestOf : α → Except IdError String} {recorded : Json} {rebuilt a : α} :
    verified digestOf recorded rebuilt = .ok a ↔ rebuilt = a ∧
      (recorded.truthy = true → ∃ digest, digestOf a = .ok digest ∧ recorded = .str (pyStr digest)) := by
  unfold verified
  by_cases htruthy : recorded.truthy = true
  · rw [if_pos htruthy, Fallible.bind_ok]
    constructor
    · rintro ⟨digest, hdigest, h⟩
      split at h
      · rename_i heq
        have hsame : rebuilt = a := Except.ok.inj h
        subst hsame
        exact ⟨rfl, fun _ => ⟨digest, Fallible.mapError_ok.mp hdigest, equalsText_iff.mp heq⟩⟩
      · cases h
    · rintro ⟨rfl, h⟩
      obtain ⟨digest, hdigest, hrecorded⟩ := h htruthy
      exact ⟨digest, Fallible.mapError_ok.mpr hdigest, by rw [if_pos (equalsText_iff.mpr hrecorded)]; rfl⟩
  · rw [if_neg htruthy]
    exact ⟨fun h => ⟨Except.ok.inj h, fun h' => absurd h' htruthy⟩, fun h => congrArg Except.ok h.1⟩

theorem fromDocument_ok {codec : Codec} {body : Json} {c : Checkpoint} :
    fromDocument codec body = .ok c ↔ rebuild codec body = .ok c ∧
      ∃ recorded, body.get (pyStr "digest") .null = .ok recorded ∧
        (recorded.truthy = true → ∃ digest, c.digest codec = .ok digest ∧ recorded = .str (pyStr digest)) := by
  unfold fromDocument recordedDigest
  simp only [Fallible.bind_ok, Fallible.mapError_ok, verified_ok]
  constructor
  · rintro ⟨c', hrebuild, recorded, hget, rfl, hdigest⟩
    exact ⟨hrebuild, recorded, hget, hdigest⟩
  · rintro ⟨hrebuild, recorded, hget, hdigest⟩
    exact ⟨c, hrebuild, recorded, hget, rfl, hdigest⟩

/-- A document is read as its checkpoint when the digest it records is the digest of what is read. -/
theorem fromDocument_document {f : Json → Json} (hf : Keeps f) (codec : Codec) {c : Checkpoint} {digest : String}
    (h : (c.map f).digest codec = .ok digest) :
    fromDocument codec (f (document (documentFields c digest))) = .ok (c.map f) :=
  fromDocument_ok.mpr ⟨rebuild_document hf codec c digest, _, digest_document hf digest, fun _ => ⟨digest, h, rfl⟩⟩

theorem toDocument_ok {codec : Codec} {c : Checkpoint} {body : Json} (h : toDocument codec c = .ok body) :
    ∃ digest, c.digest codec = .ok digest ∧ body = document (documentFields c digest) := by
  unfold toDocument at h
  cases hdigest : c.digest codec with
  | error e =>
    rw [hdigest] at h
    cases h
  | ok digest =>
    rw [hdigest] at h
    exact ⟨digest, rfl, (Except.ok.inj h).symm⟩

theorem admitted_content {codec : Codec} {c : Checkpoint} {digest : String}
    (h : Admitted codec.floats (document (documentFields c digest))) : Admitted codec.floats c.content := by
  apply admitted_document
  · cases c <;> simp [DistinctFields, Checkpoint.fields, HCheckpoint.fields, CCheckpoint.fields]
  · intro e he
    exact admitted_fields h e (List.mem_cons_of_mem _ (List.mem_cons_of_mem _ he))

theorem digest_sorted {codec : Codec} {c : Checkpoint} (h : Admitted codec.floats c.content) :
    (c.map sortKeys).digest codec = c.digest codec := by
  have hdomain : (c.map sortKeys).domain = c.domain := by cases c <;> rfl
  unfold Checkpoint.digest
  rw [hdomain]
  exact deriveId_sameValue _ h (sameValue_content c).symm

/-- The text of a document is read as the checkpoint it was written for. -/
theorem read_written {codec : Codec} {c : Checkpoint} {body : Json} {raw : ByteArray}
    (hbody : toDocument codec c = .ok body) (hpython : IsPython codec.floats (ofJson body))
    (hraw : canonicalJson codec.floats (ofJson body) = .ok raw) :
    ∃ j c', loadBytes codec.floats raw = some j ∧ fromDocument codec j = .ok c' ∧ c'.Equal c ∧
      c'.digest codec = c.digest codec ∧ ∃ body', toDocument codec c' = .ok body' ∧ SameValue body' body := by
  obtain ⟨digest, hdigest, rfl⟩ := toDocument_ok hbody
  have hadmitted := admitted_of_canonicalJson hpython hraw
  obtain ⟨j, hj, -, -, hload⟩ := canonicalJson_ok hpython hraw
  rw [← ofJson_injective _ _ hj] at hload
  have hsame := digest_sorted (admitted_content hadmitted)
  refine ⟨_, c.map sortKeys, hload, ?_, equal_sorted c, hsame, document (documentFields (c.map sortKeys) digest), ?_,
    sameValue_document c digest⟩
  · exact fromDocument_document keeps_sortKeys codec (hsame.trans hdigest)
  · rw [toDocument, hsame, hdigest]
    rfl

/-- A checkpoint is read from the document it was accepted as and from the one it is written as. -/
theorem read_accepted {codec : Codec} {body : Json} {c : Checkpoint} {recorded : Json}
    (h : fromDocument codec body = .ok c) (hrecorded : body.get (pyStr "digest") .null = .ok recorded)
    (htruthy : recorded.truthy = true) :
    ∃ body', toDocument codec c = .ok body' ∧ body'.get (pyStr "digest") .null = .ok recorded ∧
      fromDocument codec body' = .ok c := by
  obtain ⟨-, recorded', hget, hnamed⟩ := fromDocument_ok.mp h
  rw [hrecorded] at hget
  cases hget
  obtain ⟨digest, hdigest, rfl⟩ := hnamed htruthy
  refine ⟨document (documentFields c digest), by rw [toDocument, hdigest]; rfl, digest_document keeps_id digest, ?_⟩
  have hid : (c.map id).digest codec = .ok digest := by rw [map_id, hdigest]
  have hread := fromDocument_document keeps_id codec hid
  rw [map_id] at hread
  exact hread

/-- Documents come back as their checkpoints; what was accepted with its digest is written with it. -/
theorem checkpoint_roundTrip (codec : Codec) :
    (∀ c body raw, toDocument codec c = .ok body → IsPython codec.floats (ofJson body) →
      canonicalJson codec.floats (ofJson body) = .ok raw →
      ∃ j c', loadBytes codec.floats raw = some j ∧ fromDocument codec j = .ok c' ∧ c'.Equal c ∧
        c'.digest codec = c.digest codec ∧ ∃ body', toDocument codec c' = .ok body' ∧ SameValue body' body) ∧
    (∀ body c recorded, fromDocument codec body = .ok c → body.get (pyStr "digest") .null = .ok recorded →
      recorded.truthy = true →
      ∃ body', toDocument codec c = .ok body' ∧ body'.get (pyStr "digest") .null = .ok recorded ∧
        fromDocument codec body' = .ok c) :=
  ⟨fun _ _ _ hbody hpython hraw => read_written hbody hpython hraw,
    fun _ _ _ h hrecorded htruthy => read_accepted h hrecorded htruthy⟩

/-- A codec for runs on one checkpoint, without floats or numbers written as text; the digest is its own. -/
def sampleCodec : Codec where
  text := ⟨fun _ => none, fun _ => none, fun _ => [], fun _ _ h => absurd h List.not_mem_nil⟩
  floats := .empty
  sha256Hex _ := "7da2406d11fdb429c9d62b4fe7dbdf8c2f225065d82b198e1bc3d3f9d4691063"

def sampleMessage : FrozenMessage where
  role := .str (pyStr "ai")
  content := .str (pyStr "done")
  toolCalls := [⟨.str (pyStr "t1"), .str (pyStr "search"), .str (pyStr "\x7b\x7d")⟩]

def sampleCheckpoint : Checkpoint :=
  .boundaryC {
    taskId := .str (pyStr "task"), researcherId := .str (pyStr "r"), researcherMessages := [sampleMessage]
    evidenceManifest := ⟨[.str (pyStr "s1")]⟩, queryAttemptIds := [], closeReason := .str (pyStr "done")
    sampling := { model := .str (pyStr "m"), temperature := .int 0, topP := .int 1, maxTokens := .int 9 } }

def sampleDigest : String := "7da2406d11fdb429c9d62b4fe7dbdf8c2f225065d82b198e1bc3d3f9d4691063"

theorem sample_admitted : Admitted sampleCodec.floats sampleCheckpoint.content := by
  have htext := admitted_text sampleCodec.floats
  have hcalls : Admitted sampleCodec.floats (.arr (sampleMessage.toolCalls.map (·.content))) := by
    refine admittedItems_iff.mpr (List.forall_mem_singleton.mpr (admitted_document (by simp [DistinctFields]) ?_))
    simp [htext]
  have hmessage : Admitted sampleCodec.floats sampleMessage.contentDict := by
    apply admitted_document (by simp [DistinctFields])
    simp only [List.forall_mem_cons]
    refine ⟨htext _, htext _, hcalls, ?_⟩
    simp [sampleMessage, htext, Admitted]
  have hmanifest : Admitted sampleCodec.floats (EvidenceManifest.content ⟨[.str (pyStr "s1")]⟩) := by
    apply admitted_document (by simp [DistinctFields])
    refine List.forall_mem_singleton.mpr (admittedItems_iff.mpr ?_)
    simp [htext]
  apply admitted_document (by simp [DistinctFields, sampleCheckpoint, Checkpoint.fields, CCheckpoint.fields])
  simp only [sampleCheckpoint, Checkpoint.fields, CCheckpoint.fields, List.forall_mem_cons]
  refine ⟨htext _, htext _, ⟨hmessage, trivial⟩, hmanifest, trivial, htext _, ?_, ?_⟩
  · apply admitted_document (by simp [DistinctFields])
    simp [Admitted, pyStr_encodable]
  · intro e he
    cases he

theorem sample_digest : sampleCheckpoint.digest sampleCodec = .ok sampleDigest := by
  obtain ⟨raw, hraw⟩ := @deriveId_admitted _ sampleCodec.sha256Hex _ _ _ sample_admitted
    (by decide : ¬ (pyStr "c_checkpoint" = [] ∨ codePoint 31 ∈ pyStr "c_checkpoint" ∨ codePoint 0 ∈ pyStr "c_checkpoint"))
    (pyStr_encodable "c_checkpoint")
  exact hraw

theorem sample_document :
    toDocument sampleCodec sampleCheckpoint = .ok (document (documentFields sampleCheckpoint sampleDigest)) := by
  rw [toDocument, sample_digest]
  rfl

theorem sample_read :
    fromDocument sampleCodec (document (documentFields sampleCheckpoint sampleDigest)) = .ok sampleCheckpoint := by
  have hid : (sampleCheckpoint.map id).digest sampleCodec = .ok sampleDigest := by rw [map_id, sample_digest]
  have hread := fromDocument_document keeps_id sampleCodec hid
  rw [map_id] at hread
  exact hread

theorem checkpoint_roundTrip_sample :
    ∃ body', toDocument sampleCodec sampleCheckpoint = .ok body' ∧
      body'.get (pyStr "digest") .null = .ok (.str (pyStr sampleDigest)) ∧
      fromDocument sampleCodec body' = .ok sampleCheckpoint :=
  (checkpoint_roundTrip sampleCodec).2 _ _ _ sample_read (digest_document keeps_id sampleDigest) (by decide)

/-- The document of a checkpoint with a field that no reader looks at. -/
def annotated : Json := document (("note", .int 1) :: documentFields sampleCheckpoint sampleDigest)

/-- The document of a checkpoint with an empty digest. -/
def unsigned : Json := document (documentFields sampleCheckpoint "")

theorem annotated_read : fromDocument sampleCodec annotated = .ok sampleCheckpoint := by
  have hread := fromDocument_ok.mp sample_read
  have hitem : ∀ key, "note" ≠ key →
      annotated.item key = (document (documentFields sampleCheckpoint sampleDigest)).item key := by
    intro key hkey
    rw [annotated, item_document, item_document, field?_cons_ne hkey]
  have hget : ∀ key default, "note" ≠ key → annotated.get (pyStr key) default =
      (document (documentFields sampleCheckpoint sampleDigest)).get (pyStr key) default := by
    intro key default hkey
    rw [annotated, get_document, get_document, field?_cons_ne hkey]
  have hrebuild : rebuild sampleCodec annotated =
      rebuild sampleCodec (document (documentFields sampleCheckpoint sampleDigest)) := by
    simp [rebuild, hFrom, cFrom, hitem, hget]
  rw [fromDocument_ok, hrebuild, hget _ _ (by decide)]
  exact hread

theorem unsigned_read : fromDocument sampleCodec unsigned = .ok sampleCheckpoint := by
  have hrebuild := rebuild_document keeps_id sampleCodec sampleCheckpoint ""
  rw [map_id] at hrebuild
  exact fromDocument_ok.mpr ⟨hrebuild, _, digest_document keeps_id "", fun h => nomatch h⟩

/-- A further field is dropped, and an empty digest is accepted and filled in. -/
theorem annotation_dropped :
    (∃ c body', fromDocument sampleCodec annotated = .ok c ∧ toDocument sampleCodec c = .ok body' ∧
      ¬ SameValue body' annotated) ∧
    ∃ c body', fromDocument sampleCodec unsigned = .ok c ∧ toDocument sampleCodec c = .ok body' ∧
      body'.get (pyStr "digest") .null ≠ unsigned.get (pyStr "digest") .null := by
  refine ⟨⟨_, _, annotated_read, sample_document, ?_⟩, ⟨_, _, unsigned_read, sample_document, ?_⟩⟩
  · intro hsame
    have hwritten := @item_sortKeys (documentFields sampleCheckpoint sampleDigest)
      (by simp [DistinctFields, documentFields, sampleCheckpoint, Checkpoint.fields, CCheckpoint.fields]) "note"
    have hannotated := @item_sortKeys (("note", .int 1) :: documentFields sampleCheckpoint sampleDigest)
      (by simp [DistinctFields, documentFields, sampleCheckpoint, Checkpoint.fields, CCheckpoint.fields]) "note"
    unfold SameValue annotated at hsame
    rw [← hsame, hwritten, field?_cons_self] at hannotated
    simp [documentFields, sampleCheckpoint, Checkpoint.fields, CCheckpoint.fields, field?_cons_ne] at hannotated
  · have hwritten : (document (documentFields sampleCheckpoint sampleDigest)).get (pyStr "digest") .null =
        .ok (.str (pyStr sampleDigest)) := digest_document keeps_id sampleDigest
    have hempty : unsigned.get (pyStr "digest") .null = .ok (.str (pyStr "")) := digest_document keeps_id ""
    rw [hwritten, hempty]
    intro h
    exact absurd (pyStr_injective (Json.str.inj (Except.ok.inj h))) (by decide)

end Shapeflow.Checkpoints
