import Shapeflow.Checkpoints

set_option autoImplicit false

/-!
# Freezing messages

A message of the graph as it is frozen into a checkpoint, and the message that is
rebuilt from it. Arguments, metadata and payloads are kept as canonical text; a
field the message type lacks is frozen as absent.
-/
namespace Shapeflow.Adapter
open Py Canonical Checkpoints Utf8

/-! ## Messages -/

abbrev Members : Type := List (Canonical.Key × Value)

structure ToolCall where
  id : Option PyStr
  name : Option PyStr
  args : Value

/-- The fields every message type has. -/
structure Common where
  content : Json
  additionalKwargs : Members
  responseMetadata : Members
  name : Option PyStr
  id : Option PyStr

inductive Status
  | success
  | error
deriving DecidableEq

def Status.value : Status → PyStr
  | success => pyStr "success"
  | error => pyStr "error"

inductive Message
  | ai (common : Common) (toolCalls : List ToolCall) (invalidToolCalls : List Value) (usageMetadata : Option Members)
  | human (common : Common)
  | system (common : Common)
  | tool (common : Common) (toolCallId : PyStr) (artifact : Value) (status : Status)

namespace Message

def common : Message → Common
  | ai common _ _ _ => common
  | human common => common
  | system common => common
  | tool common _ _ _ => common

/-- `_role_of` -/
def role : Message → PyStr
  | ai .. => pyStr "ai"
  | human _ => pyStr "human"
  | system _ => pyStr "system"
  | tool .. => pyStr "tool"

/-! `getattr(message, name, None)` of the fields that only some types have. -/

def toolCalls : Message → List ToolCall
  | ai _ toolCalls _ _ => toolCalls
  | _ => []

def invalidToolCalls : Message → List Value
  | ai _ _ invalidToolCalls _ => invalidToolCalls
  | _ => []

def usageMetadata : Message → Value
  | ai _ _ _ (some usage) => .dict usage
  | _ => .null

def toolCallId : Message → Json
  | tool _ toolCallId _ _ => .str toolCallId
  | _ => .null

def artifact : Message → Value
  | tool _ _ artifact _ => artifact
  | _ => .null

def status : Message → Json
  | tool _ _ _ status => .str status.value
  | _ => .null

end Message

/-! ## Freezing -/

inductive FreezeError
  | canonical (e : CanonicalFailure)
  | notDecodable
  | notATool
  | contentChanged
  | nameChanged
  | artifactNotObject
  | sidecarDisagrees
  | typeError

/-- The sidecar entry of a published tool message; a missing text is empty. -/
structure Provenance where
  contentSha256 : PyStr
  name : PyStr
  sourceOccurrenceIds : List PyStr

/-- What `str(v)`, and iteration over `v or ()`, make of values other than texts and lists. -/
structure ValueText where
  repr : Value → PyStr
  elements : Value → Option (List Value)

def pyChars (cs : List Char) : PyStr := pyStr (String.ofList cs)

def optionText : Option PyStr → Json
  | none => .null
  | some s => .str s

section
variable (floats : FloatText)

/-- `{}` for `None`. -/
def orObject : Value → Value
  | .null => .dict []
  | v => v

/-- `_canon` -/
def canon (value : Value) : Except FreezeError Json :=
  match canonicalJson floats (orObject value) with
  | .error e => .error (.canonical e)
  | .ok raw =>
    match decode raw with
    | none => .error .notDecodable
    | some text => .ok (.str (pyChars text))

def freezeToolCall (tc : ToolCall) : Except FreezeError FrozenToolCall := do
  let args ← canon floats tc.args
  pure ⟨.str (tc.id.getD []), .str (tc.name.getD []), args⟩

variable (text : ValueText) (sha256Hex : ByteArray → PyStr)

def strOf : Value → PyStr
  | .str s => s
  | v => text.repr v

/-- `tuple(dict.fromkeys(str(value) for value in values if str(value)))` -/
def distinctTexts (values : List PyStr) : List PyStr := (values.filter (· ≠ [])).eraseDups

/-- `existing_ids` of an artifact. -/
def existingIds (members : Members) : Except FreezeError (List PyStr) :=
  match (members.find? fun e => match e.1 with
      | .str k => k = pyStr "source_occurrence_ids"
      | .other _ _ => false).map Prod.snd with
  | none => .ok []
  | some .null => .ok []
  | some (.list items) => .ok (distinctTexts (items.map (strOf text)))
  | some v =>
    match text.elements v with
    | none => .error .typeError
    | some items => .ok (distinctTexts (items.map (strOf text)))

/-- `{..., key: value}` -/
def withMember : Members → PyStr → Value → Members
  | [], key, value => [(.str key, value)]
  | (.str k, v) :: members, key, value =>
    if k = key then (.str k, value) :: members else (.str k, v) :: withMember members key value
  | e :: members, key, value => e :: withMember members key value

def mergeProvenance (members : Members) (occurrenceIds : List PyStr) (contentSha : PyStr) : Except FreezeError Value := do
  let existing ← existingIds text members
  if existing ≠ [] ∧ existing ≠ occurrenceIds then .error .sidecarDisagrees
  else pure (.dict (withMember (withMember (withMember members (pyStr "source_occurrence_ids")
    (.list (occurrenceIds.map .str))) (pyStr "provenance_capture") (.str (pyStr "whole_batch_publish_v1")))
    (pyStr "published_content_sha256") (.str contentSha)))

/-- The artifact that is frozen with the published provenance of its message. -/
def publishedArtifact (message : Message) (provenance : Provenance) : Except FreezeError Value := do
  if message.role ≠ pyStr "tool" then .error .notATool
  else
    let raw ← (canonicalJson floats (ofJson message.common.content)).mapError .canonical
    let contentSha := sha256Hex raw
    if contentSha ≠ provenance.contentSha256 then .error .contentChanged
    else if message.common.name.getD [] ≠ provenance.name then .error .nameChanged
    else
      match distinctTexts provenance.sourceOccurrenceIds with
      | [] => pure message.artifact
      | occurrenceIds =>
        match message.artifact with
        | .null => mergeProvenance text [] occurrenceIds contentSha
        | .dict members => mergeProvenance text members occurrenceIds contentSha
        | _ => .error .artifactNotObject

def frozenArtifact (message : Message) : Option Provenance → Except FreezeError Value
  | none => .ok message.artifact
  | some provenance => publishedArtifact floats text sha256Hex message provenance

def canonOptional : Value → Except FreezeError Json
  | .null => .ok .null
  | v => canon floats v

def freezeMessage (message : Message) (publishedProvenance : Option Provenance) :
    Except FreezeError FrozenMessage := do
  let toolCalls ← message.toolCalls.mapM (freezeToolCall floats)
  let artifact ← frozenArtifact floats text sha256Hex message publishedProvenance
  let additionalKwargs ← canon floats (.dict message.common.additionalKwargs)
  let responseMetadata ← canon floats (.dict message.common.responseMetadata)
  let usageMetadata ← canon floats message.usageMetadata
  let artifactCanonical ← canonOptional floats artifact
  let invalidToolCalls ← canon floats (.list message.invalidToolCalls)
  pure {
    role := .str message.role
    content := message.common.content
    toolCalls := toolCalls
    name := optionText message.common.name
    toolCallId := message.toolCallId
    messageId := optionText message.common.id
    additionalKwargsCanonical := additionalKwargs
    responseMetadataCanonical := responseMetadata
    usageMetadataCanonical := usageMetadata
    artifactCanonical := artifactCanonical
    invalidToolCallsCanonical := invalidToolCalls
    status := message.status }

/-! ## Thawing -/

inductive ThawError
  | jsonDecodeError
  | typeError
  | noToolCallId
  | badStatus
  /-- The message type refuses the value of a field. -/
  | validationError

/-- `json.loads(text) if text else {}` -/
def load (frozen : Json) : Except ThawError Json :=
  match frozen with
  | .str [] => .ok (.obj [])
  | .str s => (loads floats (s.map rawChar)).elim (.error .jsonDecodeError) .ok
  | v => if v.truthy then .error .typeError else .ok (.obj [])

def membersOf : Json → Except ThawError Members
  | .obj members => .ok (ofMembers members)
  | _ => .error .validationError

def itemsOf : Json → Except ThawError (List Value)
  | .arr items => .ok (ofItems items)
  | _ => .error .validationError

def textField : Json → Except ThawError (Option PyStr)
  | .null => .ok none
  | .str s => .ok (some s)
  | _ => .error .validationError

def thawToolCall (tc : FrozenToolCall) : Except ThawError ToolCall := do
  let id ← textField tc.id
  let name ← textField tc.name
  let args ← load floats tc.argsCanonical
  pure ⟨id, name, ofJson args⟩

def thawCommon (frozen : FrozenMessage) : Except ThawError Common := do
  let additionalKwargs ← load floats frozen.additionalKwargsCanonical
  let responseMetadata ← load floats frozen.responseMetadataCanonical
  let id ← textField frozen.messageId
  let name ← textField frozen.name
  pure ⟨frozen.content, ← membersOf additionalKwargs, ← membersOf responseMetadata, name, id⟩

def thawAi (common : Common) (frozen : FrozenMessage) : Except ThawError Message := do
  let usage ← load floats frozen.usageMetadataCanonical
  let toolCalls ← frozen.toolCalls.mapM (thawToolCall floats)
  let invalid ← load floats frozen.invalidToolCallsCanonical
  let invalidToolCalls ← itemsOf (invalid.orElse (.arr []))
  if usage.truthy then
    pure (.ai common toolCalls invalidToolCalls (some (← membersOf usage)))
  else pure (.ai common toolCalls invalidToolCalls none)

def thawArtifact : Json → Except ThawError Value
  | .null => .ok .null
  | frozen => (load floats frozen).map ofJson

def thawStatus (frozen : Json) : Except ThawError Status :=
  if equalsText (pyStr "success") frozen then .ok .success
  else if equalsText (pyStr "error") frozen then .ok .error
  else .error .badStatus

def thawTool (common : Common) (frozen : FrozenMessage) : Except ThawError Message := do
  match frozen.toolCallId with
  | .null => .error .noToolCallId
  | .str toolCallId =>
    let artifact ← thawArtifact floats frozen.artifactCanonical
    let status ← thawStatus frozen.status
    pure (.tool common toolCallId artifact status)
  | _ => .error .validationError

def thawMessage (frozen : FrozenMessage) : Except ThawError Message := do
  let common ← thawCommon floats frozen
  if equalsText (pyStr "ai") frozen.role then thawAi floats common frozen
  else if equalsText (pyStr "tool") frozen.role then thawTool floats common frozen
  else if equalsText (pyStr "system") frozen.role then pure (.system common)
  else pure (.human common)

end

/-! ## Canonical text read back -/

theorem pyChars_raw (cs : List Char) : (pyChars cs).map rawChar = cs := by
  rw [pyChars, pyStr, String.toList_ofList, List.map_map]
  refine (List.map_congr_left fun c _ => ?_).trans (List.map_id cs)
  have hvalid := c.valid
  have hnat : c.toNat = c.val.toNat := rfl
  simp only [UInt32.isValidChar, Nat.isValidChar, ← hnat] at hvalid
  have hval : (codePoint c.toNat).val = c.toNat := codePoint_of_lt (by omega)
  change Char.ofNat (codePoint c.toNat).val = c
  rw [hval, Char.ofNat_toNat]

section
variable {floats : FloatText}

/-- A value frozen as text is the text of a value of JSON other than `null`; it loads as that value
with its keys sorted, and freezes again as the same text. -/
theorem canon_ok {v : Value} {frozen : Json} (hv : IsPython floats v) (h : canon floats v = .ok frozen) :
    ∃ j, orObject v = ofJson j ∧ j ≠ .null ∧ load floats frozen = .ok (sortKeys j) ∧
      canon floats (ofJson (sortKeys j)) = .ok frozen := by
  have hpython : IsPython floats (orObject v) := by
    cases v <;> first | exact hv | exact ⟨List.nodup_nil, trivial⟩
  rw [canon] at h
  split at h
  · cases h
  · rename_i raw hraw
    obtain ⟨j, hj, hadmitted, rfl, -⟩ := canonicalJson_ok hpython hraw
    rw [decode_utf8] at h
    obtain rfl := Except.ok.inj h
    have hloads : loads floats (canonicalText floats j) = some (sortKeys j) := loads_canonicalText hadmitted
    have hnull : j ≠ .null := by
      rintro rfl
      cases v <;> cases hj
    refine ⟨j, hj, hnull, ?_, ?_⟩
    · have hne : pyChars (canonicalText floats j) ≠ [] := by
        intro hnil
        have hempty := pyChars_raw (canonicalText floats j)
        rw [hnil] at hempty
        rw [← hempty] at hloads
        cases hloads
      rw [load]
      · rw [pyChars_raw, hloads]
        rfl
      · exact hne
    · have hsame := canonicalJson_sameValue hadmitted (w := sortKeys j) (sortKeys_idem j).symm
      have horObject : orObject (ofJson (sortKeys j)) = ofJson (sortKeys j) := by
        cases j <;> first | rfl | exact absurd rfl hnull
      rw [canon, horObject, hsame.2, canonicalJson_admitted hadmitted]
      simp only [decode_utf8]

/-- What every value of JSON that is admitted freezes as. -/
def canonOf (floats : FloatText) (j : Json) : Json := .str (pyChars (canonicalText floats j))

theorem canon_admitted {j : Json} (hnull : j ≠ .null) (h : Admitted floats j) :
    canon floats (ofJson j) = .ok (canonOf floats j) := by
  have horObject : orObject (ofJson j) = ofJson j := by
    cases j <;> first | rfl | exact absurd rfl hnull
  rw [canon, horObject, canonicalJson_admitted h]
  simp only [decode_utf8]
  rfl

/-- A dictionary loads as one and freezes again as the same text. -/
theorem canon_dict {members : Members} {frozen : Json} (hv : IsPython floats (.dict members))
    (h : canon floats (.dict members) = .ok frozen) :
    ∃ js, load floats frozen = .ok (.obj js) ∧ canon floats (.dict (ofMembers js)) = .ok frozen := by
  obtain ⟨j, hj, -, hload, hcanon⟩ := canon_ok hv h
  cases j with
  | obj js => exact ⟨_, hload, hcanon⟩
  | null | bool _ | int _ | float _ | str _ | arr _ => cases hj

theorem canon_list {items : List Value} {frozen : Json} (hv : IsPython floats (.list items))
    (h : canon floats (.list items) = .ok frozen) :
    ∃ js, load floats frozen = .ok (.arr js) ∧ canon floats (.list (ofItems js)) = .ok frozen := by
  obtain ⟨j, hj, -, hload, hcanon⟩ := canon_ok hv h
  cases j with
  | arr js => exact ⟨_, hload, hcanon⟩
  | null | bool _ | int _ | float _ | str _ | obj _ => cases hj

/-! ## The provenance of a published message -/

theorem mem_keys_withMember {members : Members} {key : PyStr} {value : Value} {k : Canonical.Key} :
    k ∈ (withMember members key value).map Prod.fst → k ∈ members.map Prod.fst ∨ k = .str key := by
  induction members with
  | nil =>
    intro h
    exact Or.inr (List.mem_singleton.mp h)
  | cons e members ih =>
    obtain ⟨k', v⟩ := e
    intro h
    cases k' with
    | other repr typeName =>
      rw [withMember, List.map_cons, List.mem_cons] at h
      · rcases h with rfl | h
        · exact Or.inl (by simp)
        · rcases ih h with h | h
          · exact Or.inl (List.mem_cons_of_mem _ h)
          · exact Or.inr h
      · exact nofun
    | str t =>
      rw [withMember] at h
      split at h
      · exact Or.inl h
      · rcases List.mem_cons.mp h with rfl | h
        · exact Or.inl (by simp)
        · rcases ih h with h | h
          · exact Or.inl (List.mem_cons_of_mem _ h)
          · exact Or.inr h

theorem isPython_withMember {members : Members} {key : PyStr} {value : Value} (hm : IsPython floats (.dict members))
    (hv : IsPython floats value) : IsPython floats (.dict (withMember members key value)) := by
  induction members with
  | nil => exact ⟨List.nodup_singleton _, hv, trivial⟩
  | cons e members ih =>
    obtain ⟨k', v⟩ := e
    obtain ⟨hkeys, hhead, htail⟩ := hm
    rw [List.map_cons, List.nodup_cons] at hkeys
    obtain ⟨hnodup, hmembers⟩ := ih ⟨hkeys.2, htail⟩
    cases k' with
    | other repr typeName =>
      rw [withMember]
      · refine ⟨List.nodup_cons.mpr ⟨fun hmem => ?_, hnodup⟩, hhead, hmembers⟩
        rcases mem_keys_withMember hmem with h | h
        · exact hkeys.1 h
        · cases h
      · exact nofun
    | str t =>
      rw [withMember]
      split
      · exact ⟨List.nodup_cons.mpr hkeys, hv, htail⟩
      · rename_i hne
        refine ⟨List.nodup_cons.mpr ⟨fun hmem => ?_, hnodup⟩, hhead, hmembers⟩
        rcases mem_keys_withMember hmem with h | h
        · exact hkeys.1 h
        · exact hne (Key.str.inj h)

end

/-- The values of a message are Python values. -/
structure Message.IsPython (floats : FloatText) (m : Message) : Prop where
  args : ∀ tc ∈ m.toolCalls, Canonical.IsPython floats tc.args
  additionalKwargs : Canonical.IsPython floats (.dict m.common.additionalKwargs)
  responseMetadata : Canonical.IsPython floats (.dict m.common.responseMetadata)
  usageMetadata : Canonical.IsPython floats m.usageMetadata
  artifact : Canonical.IsPython floats m.artifact
  invalidToolCalls : Canonical.IsPython floats (.list m.invalidToolCalls)

section
variable {floats : FloatText} {text : ValueText} {sha256Hex : ByteArray → PyStr}

theorem isPython_texts (ids : List PyStr) : Canonical.IsPython floats (.list (ids.map .str)) := by
  induction ids with
  | nil => trivial
  | cons id ids ih => exact ⟨trivial, ih⟩

theorem isPython_merged {members : Members} {ids : List PyStr} {sha : PyStr} {artifact : Value}
    (hm : Canonical.IsPython floats (.dict members)) (h : mergeProvenance text members ids sha = .ok artifact) :
    Canonical.IsPython floats artifact := by
  obtain ⟨existing, -, h⟩ := Fallible.bind_ok.mp h
  split at h
  · cases h
  · obtain rfl := Except.ok.inj h
    exact isPython_withMember (isPython_withMember (isPython_withMember hm (isPython_texts ids)) trivial) trivial

/-- Only a tool message is frozen with provenance, and what is frozen then is a Python value too. -/
theorem frozenArtifact_ok {m : Message} {provenance : Option Provenance} {artifact : Value}
    (hm : m.IsPython floats) (h : frozenArtifact floats text sha256Hex m provenance = .ok artifact) :
    Canonical.IsPython floats artifact ∧ (m.role ≠ pyStr "tool" → artifact = m.artifact) := by
  cases provenance with
  | none =>
    obtain rfl := Except.ok.inj h
    exact ⟨hm.artifact, fun _ => rfl⟩
  | some provenance =>
    simp only [frozenArtifact, publishedArtifact] at h
    split at h
    · cases h
    · rename_i hrole
      refine ⟨?_, fun hnot => absurd hnot hrole⟩
      obtain ⟨raw, -, h⟩ := Fallible.bind_ok.mp h
      split at h
      · cases h
      · split at h
        · cases h
        · split at h
          · obtain rfl := Except.ok.inj h
            exact hm.artifact
          · have hartifact := hm.artifact
            split at h
            · exact isPython_merged (show Canonical.IsPython floats (.dict []) from ⟨List.nodup_nil, trivial⟩) h
            · rename_i heq
              rw [heq] at hartifact
              exact isPython_merged hartifact h
            · cases h

/-! ## Frozen, thawed, frozen -/

theorem freezeToolCall_thaw {tc : ToolCall} {frozen : FrozenToolCall} (hv : Canonical.IsPython floats tc.args)
    (h : freezeToolCall floats tc = .ok frozen) :
    ∃ tc', thawToolCall floats frozen = .ok tc' ∧ freezeToolCall floats tc' = .ok frozen := by
  obtain ⟨args, hargs, h⟩ := Fallible.bind_ok.mp h
  obtain rfl := Except.ok.inj h
  obtain ⟨j, -, -, hload, hcanon⟩ := canon_ok hv hargs
  refine ⟨⟨some (tc.id.getD []), some (tc.name.getD []), ofJson (sortKeys j)⟩, ?_, ?_⟩
  · simp only [thawToolCall, textField, hload]
    rfl
  · simp only [freezeToolCall, hcanon]
    rfl

theorem freezeToolCalls_thaw {calls : List ToolCall} {frozen : List FrozenToolCall}
    (hv : ∀ tc ∈ calls, Canonical.IsPython floats tc.args)
    (h : calls.mapM (freezeToolCall floats) = .ok frozen) :
    ∃ calls', frozen.mapM (thawToolCall floats) = .ok calls' ∧ calls'.mapM (freezeToolCall floats) = .ok frozen := by
  rw [Fallible.mapM_forall₂] at h
  induction h with
  | nil => exact ⟨[], rfl, rfl⟩
  | @cons tc frozenCall calls frozen hhead htail ih =>
    obtain ⟨tc', hthaw, hfreeze⟩ := freezeToolCall_thaw (hv tc (by simp)) hhead
    obtain ⟨calls', hthaws, hfreezes⟩ := ih fun tc htc => hv tc (List.mem_cons_of_mem _ htc)
    rw [Fallible.mapM_forall₂] at hthaws hfreezes
    exact ⟨tc' :: calls', Fallible.mapM_forall₂.mpr (.cons hthaw hthaws),
      Fallible.mapM_forall₂.mpr (.cons hfreeze hfreezes)⟩

theorem textField_optionText (s : Option PyStr) : textField (optionText s) = .ok s := by
  cases s <;> rfl

/-- What the common fields freeze as thaws into common fields that freeze the same way. -/
theorem thawCommon_ok {m : Message} {frozen : FrozenMessage} (hm : m.IsPython floats)
    (hadditional : canon floats (.dict m.common.additionalKwargs) = .ok frozen.additionalKwargsCanonical)
    (hresponse : canon floats (.dict m.common.responseMetadata) = .ok frozen.responseMetadataCanonical)
    (hname : frozen.name = optionText m.common.name) (hid : frozen.messageId = optionText m.common.id) :
    ∃ common, thawCommon floats frozen = .ok common ∧ common.content = frozen.content ∧
      common.name = m.common.name ∧ common.id = m.common.id ∧
      canon floats (.dict common.additionalKwargs) = .ok frozen.additionalKwargsCanonical ∧
      canon floats (.dict common.responseMetadata) = .ok frozen.responseMetadataCanonical := by
  obtain ⟨additional, hloadA, hcanonA⟩ := canon_dict hm.additionalKwargs hadditional
  obtain ⟨response, hloadR, hcanonR⟩ := canon_dict hm.responseMetadata hresponse
  refine ⟨⟨frozen.content, ofMembers additional, ofMembers response, m.common.name, m.common.id⟩, ?_, rfl, rfl,
    rfl, hcanonA, hcanonR⟩
  rw [thawCommon, hloadA, hloadR, hname, hid, textField_optionText, textField_optionText]
  rfl

theorem usageMetadata_cases (m : Message) : m.usageMetadata = .null ∨ ∃ usage, m.usageMetadata = .dict usage := by
  cases m with
  | ai common toolCalls invalidToolCalls usage =>
    cases usage with
    | none => exact Or.inl rfl
    | some usage => exact Or.inr ⟨usage, rfl⟩
  | human _ => exact Or.inl rfl
  | system _ => exact Or.inl rfl
  | tool _ _ _ _ => exact Or.inl rfl

/-- A usage record that is missing freezes as an empty one. -/
theorem usageMetadata_ok {m : Message} {frozen : Json} (hm : m.IsPython floats)
    (h : canon floats m.usageMetadata = .ok frozen) :
    ∃ js, load floats frozen = .ok (.obj js) ∧ canon floats (.dict (ofMembers js)) = .ok frozen := by
  have hv := hm.usageMetadata
  rcases usageMetadata_cases m with husage | ⟨usage, husage⟩
  · rw [husage] at h
    have hempty : canon floats (.dict []) = .ok frozen := h
    exact canon_dict (show IsPython floats (.dict []) from ⟨List.nodup_nil, trivial⟩) hempty
  · rw [husage] at h hv
    exact canon_dict hv h

theorem thawStatus_value (status : Status) : thawStatus (.str status.value) = .ok status := by
  cases status with
  | success =>
    have hsuccess : equalsText (pyStr "success") (.str Status.success.value) = true := equalsText_iff.mpr rfl
    rw [thawStatus, if_pos hsuccess]
  | error =>
    have hsuccess : ¬equalsText (pyStr "success") (.str Status.error.value) = true := by decide
    have herror : equalsText (pyStr "error") (.str Status.error.value) = true := equalsText_iff.mpr rfl
    rw [thawStatus, if_neg hsuccess, if_pos herror]

theorem canon_text {v : Value} {frozen : Json} (h : canon floats v = .ok frozen) : ∃ s, frozen = .str s := by
  rw [canon] at h
  split at h
  · cases h
  · split at h
    · cases h
    · exact ⟨_, (Except.ok.inj h).symm⟩

theorem canonOptional_ne_null {v : Value} (hv : v ≠ .null) : canonOptional floats v = canon floats v := by
  cases v <;> first | rfl | exact absurd rfl hv

theorem thawArtifact_ok {artifact : Value} {frozen : Json} (hv : Canonical.IsPython floats artifact)
    (h : canonOptional floats artifact = .ok frozen) :
    ∃ artifact', thawArtifact floats frozen = .ok artifact' ∧ canonOptional floats artifact' = .ok frozen := by
  by_cases hnull : artifact = .null
  · subst hnull
    obtain rfl := Except.ok.inj h
    exact ⟨.null, rfl, rfl⟩
  · rw [canonOptional_ne_null hnull] at h
    obtain ⟨j, -, hj, hload, hcanon⟩ := canon_ok hv h
    obtain ⟨s, rfl⟩ := canon_text h
    refine ⟨ofJson (sortKeys j), ?_, ?_⟩
    · change (load floats (.str s)).map ofJson = _
      rw [hload]
      rfl
    · rw [canonOptional_ne_null, hcanon]
      intro heq
      cases j <;> first | exact hj rfl | cases heq

/-- The fields of a frozen message, in the order they are computed. -/
theorem freezeMessage_ok {m : Message} {provenance : Option Provenance} {frozen : FrozenMessage} :
    freezeMessage floats text sha256Hex m provenance = .ok frozen ↔
      ∃ toolCalls artifact additional response usage artifactText invalid,
        m.toolCalls.mapM (freezeToolCall floats) = .ok toolCalls ∧
        frozenArtifact floats text sha256Hex m provenance = .ok artifact ∧
        canon floats (.dict m.common.additionalKwargs) = .ok additional ∧
        canon floats (.dict m.common.responseMetadata) = .ok response ∧
        canon floats m.usageMetadata = .ok usage ∧ canonOptional floats artifact = .ok artifactText ∧
        canon floats (.list m.invalidToolCalls) = .ok invalid ∧
        frozen = {
          role := .str m.role, content := m.common.content, toolCalls := toolCalls
          name := optionText m.common.name, toolCallId := m.toolCallId, messageId := optionText m.common.id
          additionalKwargsCanonical := additional, responseMetadataCanonical := response
          usageMetadataCanonical := usage, artifactCanonical := artifactText
          invalidToolCallsCanonical := invalid, status := m.status } := by
  simp only [freezeMessage, Fallible.bind_ok]
  constructor
  · rintro ⟨toolCalls, h1, artifact, h2, additional, h3, response, h4, usage, h5, artifactText, h6, invalid, h7, h⟩
    exact ⟨toolCalls, artifact, additional, response, usage, artifactText, invalid, h1, h2, h3, h4, h5, h6, h7,
      (Except.ok.inj h).symm⟩
  · rintro ⟨toolCalls, artifact, additional, response, usage, artifactText, invalid, h1, h2, h3, h4, h5, h6, h7, rfl⟩
    exact ⟨toolCalls, h1, artifact, h2, additional, h3, response, h4, usage, h5, artifactText, h6, invalid, h7, rfl⟩

/-- The usage record an assistant message gets back: none where the frozen one is empty. -/
def usageOf (js : List (PyStr × Json)) : Option Members := if js = [] then none else some (ofMembers js)

theorem thawAi_ok {common : Common} {frozen : FrozenMessage} {usage : List (PyStr × Json)} {invalid : List Json}
    {toolCalls : List ToolCall} (husage : load floats frozen.usageMetadataCanonical = .ok (.obj usage))
    (htools : frozen.toolCalls.mapM (thawToolCall floats) = .ok toolCalls)
    (hinvalid : load floats frozen.invalidToolCallsCanonical = .ok (.arr invalid)) :
    thawAi floats common frozen = .ok (.ai common toolCalls (ofItems invalid) (usageOf usage)) := by
  rw [thawAi, husage, htools, hinvalid, usageOf]
  cases usage <;> cases invalid <;> rfl

theorem canon_usageOf {common : Common} {toolCalls : List ToolCall} {invalid : List Value} {frozen : Json}
    {usage : List (PyStr × Json)} (h : canon floats (.dict (ofMembers usage)) = .ok frozen) :
    canon floats (Message.ai common toolCalls invalid (usageOf usage)).usageMetadata = .ok frozen := by
  cases usage with
  | nil => exact h
  | cons e usage => exact h

/-- The role decides which message type is rebuilt. -/
theorem thawMessage_role {frozen : FrozenMessage} {common : Common} (hcommon : thawCommon floats frozen = .ok common) :
    (frozen.role = .str (pyStr "ai") → thawMessage floats frozen = thawAi floats common frozen) ∧
    (frozen.role = .str (pyStr "tool") → thawMessage floats frozen = thawTool floats common frozen) ∧
    (frozen.role = .str (pyStr "system") → thawMessage floats frozen = .ok (.system common)) ∧
    (frozen.role = .str (pyStr "human") → thawMessage floats frozen = .ok (.human common)) := by
  rw [thawMessage, hcommon, Fallible.ok_bind]
  refine ⟨fun h => ?_, fun h => ?_, fun h => ?_, fun h => ?_⟩ <;> rw [h]
  · rw [if_pos (by decide)]
  · rw [if_neg (by decide), if_pos (by decide)]
  · rw [if_neg (by decide), if_neg (by decide), if_pos (by decide)]
    rfl
  · rw [if_neg (by decide), if_neg (by decide), if_neg (by decide)]
    rfl

theorem thawTool_ok {common : Common} {frozen : FrozenMessage} {toolCallId : PyStr} {artifact : Value} {status : Status}
    (hid : frozen.toolCallId = .str toolCallId) (hartifact : thawArtifact floats frozen.artifactCanonical = .ok artifact)
    (hstatus : frozen.status = .str status.value) :
    thawTool floats common frozen = .ok (.tool common toolCallId artifact status) := by
  simp only [thawTool, hid, hartifact, hstatus, thawStatus_value]
  rfl

/-- Without a payload of its own a message freezes none. -/
theorem artifactText_null {m : Message} {artifact : Value} {frozen : Json} (hother : m.role ≠ pyStr "tool" → artifact = m.artifact)
    (hrole : m.role ≠ pyStr "tool") (hnone : m.artifact = .null) (h : canonOptional floats artifact = .ok frozen) :
    frozen = .null := by
  rw [hother hrole, hnone] at h
  exact (Except.ok.inj h).symm

/-- A frozen message thaws, and what it thaws to freezes as the same frozen message. -/
theorem freezeMessage_thawMessage (floats : FloatText) (text text' : ValueText) (sha256Hex sha256Hex' : ByteArray → PyStr)
    (m : Message) (provenance : Option Provenance) (frozen : FrozenMessage) (hm : m.IsPython floats)
    (h : freezeMessage floats text sha256Hex m provenance = .ok frozen) :
    ∃ thawed, thawMessage floats frozen = .ok thawed ∧ thawed.role = m.role ∧
      freezeMessage floats text' sha256Hex' thawed none = .ok frozen := by
  obtain ⟨toolCalls, artifact, additional, response, usage, artifactText, invalid, htools, hartifact, hadditional,
    hresponse, husage, hartifactText, hinvalid, hfrozen⟩ := freezeMessage_ok.mp h
  have hA : canon floats (.dict m.common.additionalKwargs) = .ok frozen.additionalKwargsCanonical :=
    hfrozen ▸ hadditional
  have hR : canon floats (.dict m.common.responseMetadata) = .ok frozen.responseMetadataCanonical :=
    hfrozen ▸ hresponse
  obtain ⟨common, hcommon, hcontent, hname, hid, hcanonA, hcanonR⟩ :=
    thawCommon_ok hm hA hR (by rw [hfrozen]) (by rw [hfrozen])
  obtain ⟨usageJs, hloadU, hcanonU⟩ := usageMetadata_ok hm husage
  obtain ⟨invalidJs, hloadI, hcanonI⟩ := canon_list hm.invalidToolCalls hinvalid
  obtain ⟨calls, hthawT, hfreezeT⟩ := freezeToolCalls_thaw hm.args htools
  obtain ⟨hpython, hother⟩ := frozenArtifact_ok hm hartifact
  obtain ⟨artifact', hthawA, hfreezeA⟩ := thawArtifact_ok hpython hartifactText
  have hrole : frozen.role = .str m.role := by rw [hfrozen]
  obtain ⟨hai, htool, hsystem, hhuman⟩ := thawMessage_role hcommon
  have hcontent : common.content = m.common.content := by rw [hcontent, hfrozen]
  have hcanonA : canon floats (.dict common.additionalKwargs) = .ok additional := by rw [hcanonA, hfrozen]
  have hcanonR : canon floats (.dict common.responseMetadata) = .ok response := by rw [hcanonR, hfrozen]
  cases m with
  | ai common₀ calls₀ invalid₀ usage₀ =>
    obtain rfl := artifactText_null hother (show pyStr "ai" ≠ pyStr "tool" by decide) rfl hartifactText
    refine ⟨.ai common calls (ofItems invalidJs) (usageOf usageJs), ?_, rfl, ?_⟩
    · rw [hai hrole]
      exact thawAi_ok (by rw [hfrozen]; exact hloadU) (by rw [hfrozen]; exact hthawT) (by rw [hfrozen]; exact hloadI)
    · refine freezeMessage_ok.mpr ⟨toolCalls, .null, additional, response, usage, .null, invalid, hfreezeT, rfl,
        hcanonA, hcanonR, canon_usageOf hcanonU, rfl, hcanonI, ?_⟩
      rw [hfrozen]
      simp only [Message.common, hcontent, hname, hid]
      rfl
  | human common₀ =>
    obtain rfl := artifactText_null hother (show pyStr "human" ≠ pyStr "tool" by decide) rfl hartifactText
    refine ⟨.human common, hhuman hrole, rfl, ?_⟩
    refine freezeMessage_ok.mpr ⟨toolCalls, .null, additional, response, usage, .null, invalid, htools, rfl,
      hcanonA, hcanonR, husage, rfl, hinvalid, ?_⟩
    rw [hfrozen]
    simp only [Message.common, hcontent, hname, hid]
    rfl
  | system common₀ =>
    obtain rfl := artifactText_null hother (show pyStr "system" ≠ pyStr "tool" by decide) rfl hartifactText
    refine ⟨.system common, hsystem hrole, rfl, ?_⟩
    refine freezeMessage_ok.mpr ⟨toolCalls, .null, additional, response, usage, .null, invalid, htools, rfl,
      hcanonA, hcanonR, husage, rfl, hinvalid, ?_⟩
    rw [hfrozen]
    simp only [Message.common, hcontent, hname, hid]
    rfl
  | tool common₀ toolCallId artifact₀ status =>
    refine ⟨.tool common toolCallId artifact' status, ?_, rfl, ?_⟩
    · rw [htool hrole]
      exact thawTool_ok (by rw [hfrozen]; rfl) (by rw [hfrozen]; exact hthawA) (by rw [hfrozen]; rfl)
    · refine freezeMessage_ok.mpr ⟨toolCalls, artifact', additional, response, usage, artifactText, invalid, htools,
        rfl, hcanonA, hcanonR, husage, hfreezeA, hinvalid, ?_⟩
      rw [hfrozen]
      simp only [Message.common, hcontent, hname, hid]
      rfl

/-- An assistant message with one tool call, a name and no id. -/
def searchMessage : Message :=
  .ai ⟨.arr [.obj [(pyStr "type", .str (pyStr "text"))]], [(.str (pyStr "refusal"), .null)], [], some (pyStr "lead"), none⟩
    [⟨none, some (pyStr "search"), .dict [(.str (pyStr "query"), .str (pyStr "q"))]⟩] [] (some [])

theorem searchMessage_isPython (floats : FloatText) : searchMessage.IsPython floats where
  args := fun tc htc => by
    rw [List.mem_singleton.mp htc]
    exact ⟨List.nodup_singleton _, trivial, trivial⟩
  additionalKwargs := ⟨List.nodup_singleton _, trivial, trivial⟩
  responseMetadata := ⟨List.nodup_nil, trivial⟩
  usageMetadata := ⟨List.nodup_nil, trivial⟩
  artifact := trivial
  invalidToolCalls := trivial

def plainText : ValueText := ⟨fun _ => [], fun _ => none⟩

theorem freezeMessage_searchMessage (floats : FloatText) :
    ∃ frozen, freezeMessage floats plainText (fun _ => []) searchMessage none = .ok frozen := by
  have hargs := @canon_admitted floats (.obj [(pyStr "query", .str (pyStr "q"))]) nofun
    ⟨List.nodup_singleton _, pyStr_encodable _, pyStr_encodable _, trivial⟩
  have hkwargs := @canon_admitted floats (.obj [(pyStr "refusal", .null)]) nofun
    ⟨List.nodup_singleton _, pyStr_encodable _, trivial, trivial⟩
  have hempty := @canon_admitted floats (.obj []) nofun ⟨List.nodup_nil, trivial⟩
  have hitems := @canon_admitted floats (.arr []) nofun trivial
  have hcall : freezeToolCall floats ⟨none, some (pyStr "search"), .dict [(.str (pyStr "query"), .str (pyStr "q"))]⟩ =
      .ok ⟨.str [], .str (pyStr "search"), canonOf floats (.obj [(pyStr "query", .str (pyStr "q"))])⟩ := by
    rw [freezeToolCall, show canon floats (.dict [(.str (pyStr "query"), .str (pyStr "q"))]) = _ from hargs]
    rfl
  refine ⟨_, freezeMessage_ok.mpr ⟨_, _, _, _, _, _, _, Fallible.mapM_forall₂.mpr (.cons hcall .nil), rfl, hkwargs,
    hempty, hempty, rfl, hitems, rfl⟩⟩

theorem freezeMessage_thawMessage_searchMessage :
    ∃ frozen, freezeMessage .empty plainText (fun _ => []) searchMessage none = .ok frozen ∧
      ∃ thawed, thawMessage .empty frozen = .ok thawed ∧ thawed.role = searchMessage.role ∧
        freezeMessage .empty plainText (fun _ => []) thawed none = .ok frozen := by
  obtain ⟨frozen, hfrozen⟩ := freezeMessage_searchMessage .empty
  exact ⟨frozen, hfrozen, freezeMessage_thawMessage .empty plainText plainText (fun _ => []) (fun _ => [])
    searchMessage none frozen (searchMessage_isPython .empty) hfrozen⟩

end

end Shapeflow.Adapter
