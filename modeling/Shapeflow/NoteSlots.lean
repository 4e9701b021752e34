import Mathlib.Algebra.Order.Ring.Int
import Mathlib.Data.List.Forall2
import Shapeflow.Dict
import Shapeflow.Fallible
import Shapeflow.Utf8

set_option autoImplicit false

/-!
# Note slots

A note of the supervisor is attributed to the child whose name ends with the hash of
the tool call the note answers. Names and notes meet in that hash alone.
-/
namespace Shapeflow.NoteSlots
open Utf8 (utf8)
open Fallible

def isHexDigit (c : Char) : Bool := ('0' ≤ c ∧ c ≤ '9') ∨ ('a' ≤ c ∧ c ≤ 'f')

/-- SHA-256 in lowercase hexadecimal. -/
structure Sha256 where
  hex : ByteArray → String
  wellFormed : ∀ raw, (hex raw).length = 64 ∧ (hex raw).toList.all isHexDigit = true

/-! ## The supervisor's notes -/

/-- What `getattr(message, name, "")` finds: of a value that is no text, what `str` and `bool` make of it. -/
inductive Attribute
  | missing
  | none
  | text (s : String)
  | other (shown : String) (truthy : Bool)
deriving DecidableEq, Repr

/-- `str(v)` -/
def Attribute.str : Attribute → String
  | missing => ""
  | none => "None"
  | text s => s
  | other shown _ => shown

/-- `str(v or "")` -/
def Attribute.strOr : Attribute → String
  | missing | none => ""
  | text s => s
  | other shown truthy => if truthy then shown else ""

structure SupervisorMessage where
  type : Attribute
  content : Attribute
  name : Attribute
  toolCallId : Attribute
deriving DecidableEq, Repr

def SupervisorMessage.isTool (m : SupervisorMessage) : Bool := m.type.str = "tool"

/-- `child_slot_key` -/
def childSlotKey (sha : Sha256) (toolCallId : String) : String :=
  String.ofList ((sha.hex (utf8 toolCallId.toList)).toList.take 16)

structure NoteSlot where
  ordinal : ℕ
  content : String
  toolCallId : String
deriving DecidableEq, Repr

def NoteSlot.slotKey (sha : Sha256) (slot : NoteSlot) : String :=
  if slot.toolCallId = "" then "" else childSlotKey sha slot.toolCallId

inductive SlotError
  | lengths (notes toolMessages : ℕ)
  | otherContent (ordinal : ℕ)
  | outside (ordinal : ℕ)
deriving DecidableEq, Repr

def ConductsResearch (m : SupervisorMessage) : Prop := m.name.str = "ConductResearch"

instance : DecidablePred ConductsResearch := fun m => inferInstanceAs (Decidable (m.name.str = "ConductResearch"))

/-- The slot of a tool message and the note beside it. -/
def slotOf (e : (SupervisorMessage × String) × ℕ) : Except SlotError NoteSlot :=
  if e.1.1.content.strOr ≠ e.1.2 then .error (.otherContent e.2)
  else .ok ⟨e.2, e.1.2, if ConductsResearch e.1.1 then e.1.1.toolCallId.strOr else ""⟩

def noteSlotsFromSupervisorMessages (supervisorMessages : List SupervisorMessage) (notes : List String) :
    Except SlotError (List NoteSlot) :=
  let toolMessages := supervisorMessages.filter (·.isTool)
  if toolMessages.length ≠ notes.length then .error (.lengths notes.length toolMessages.length)
  else ((toolMessages.zip notes).zipIdx).mapM slotOf

/-! ## The envelope's notes -/

/-- `text.rsplit("-", 1)[-1] if "-" in text else ""` -/
def lastPiece (text : String) : String :=
  if '-' ∈ text.toList then String.ofList (text.toList.reverse.takeWhile (· ≠ '-')).reverse else ""

/-- `ContinuationEnvelope.slot_for` -/
def slotFor (sha : Sha256) (notes : List NoteSlot) (researcherId : String) : Option NoteSlot :=
  let key := lastPiece researcherId
  if key = "" then none
  else
    match notes.filter fun slot => slot.slotKey sha ≠ "" ∧ slot.slotKey sha = key with
    | [slot] => some slot
    | _ => none

/-- `ContinuationEnvelope.substitute` -/
def substitute (notes : List NoteSlot) (slot : NoteSlot) (replacement : String) : Except SlotError (List String) :=
  if notes.length ≤ slot.ordinal then .error (.outside slot.ordinal)
  else .ok ((notes.map (·.content)).set slot.ordinal replacement)

/-! ## Children -/

structure RunBinding where
  taskId : String
  researcherId : String
  attemptId : String
  researcherCoordinate : Option (ℤ × ℤ × String)
deriving DecidableEq, Repr

/-- `_CHILD_COORDINATES` -/
abbrev ChildCoordinates : Type := Dict (String × ℤ × ℤ) String

inductive BindingError
  | noParent
  | badCoordinate
  | registryUnbound
  | slotReused (slot : String × ℤ × ℤ) (held now : String)
deriving DecidableEq, Repr

structure ChildCall where
  iteration : ℤ
  ordinal : ℤ
  toolCallId : String
deriving DecidableEq, Repr

section
variable (sha : Sha256)

def childId (parent : RunBinding) (call : ChildCall) : String :=
  parent.researcherId ++ "/child-" ++ toString call.iteration ++ "-" ++ toString call.ordinal ++ "-" ++
    childSlotKey sha call.toolCallId

def childOf (parent : RunBinding) (call : ChildCall) : RunBinding :=
  { parent with
    researcherId := childId sha parent call
    researcherCoordinate := some (call.iteration, call.ordinal, call.toolCallId) }

/-- `invoke_child_researcher`, up to the child's binding. -/
def invokeChildResearcher (parent : Option RunBinding) (registry : Option ChildCoordinates) (call : ChildCall) :
    Except BindingError (ChildCoordinates × RunBinding) :=
  match parent with
  | none => .error .noParent
  | some parent =>
    if call.iteration < 0 ∨ call.ordinal < 0 ∨ call.toolCallId = "" then .error .badCoordinate
    else
      match registry with
      | none => .error .registryUnbound
      | some registry =>
        let slot := (parent.researcherId, call.iteration, call.ordinal)
        match registry.get? slot with
        | some previous =>
          if previous ≠ call.toolCallId then .error (.slotReused slot previous call.toolCallId)
          else .ok (registry.set slot call.toolCallId, childOf sha parent call)
        | none => .ok (registry.set slot call.toolCallId, childOf sha parent call)

/-- The calls of one run, each under the bindings of the moment it is made. -/
def invokeChildren (parent : Option RunBinding) :
    Option ChildCoordinates → List ChildCall → Except BindingError (List RunBinding)
  | _, [] => .ok []
  | registry, call :: calls => do
    let (registry, child) ← invokeChildResearcher sha parent registry call
    let children ← invokeChildren parent (some registry) calls
    return child :: children

end

/-! ## Names -/

theorem lastPiece_append {front key : String} (hkey : '-' ∉ key.toList) : lastPiece (front ++ "-" ++ key) = key := by
  have hhyphen : '-' ∈ (front ++ "-" ++ key).toList := by simp [String.toList_append]
  have hpiece : ((front ++ "-" ++ key).toList.reverse.takeWhile (· ≠ '-')).reverse = key.toList := by
    simp only [String.toList_append, List.reverse_append]
    rw [List.takeWhile_append_of_pos]
    · simp
    · intro c hc
      rw [List.mem_reverse] at hc
      simpa using fun h : c = '-' => hkey (h ▸ hc)
  unfold lastPiece
  rw [if_pos hhyphen, hpiece, String.ofList_toList]

theorem childSlotKey_hex (sha : Sha256) (id : String) :
    childSlotKey sha id ≠ "" ∧ '-' ∉ (childSlotKey sha id).toList := by
  obtain ⟨hlength, hhex⟩ := sha.wellFormed (utf8 id.toList)
  have hlist : (childSlotKey sha id).toList = (sha.hex (utf8 id.toList)).toList.take 16 := String.toList_ofList
  refine ⟨fun hempty => ?_, fun hhyphen => ?_⟩
  · rw [hempty] at hlist
    have hlen := congrArg List.length hlist
    simp only [List.length_take, String.length_toList, hlength] at hlen
    exact absurd hlen (by decide)
  · rw [hlist] at hhyphen
    have hdigit := List.all_eq_true.mp hhex '-' (List.mem_of_mem_take hhyphen)
    exact absurd hdigit (by decide)

theorem lastPiece_childId (sha : Sha256) (parent : RunBinding) (call : ChildCall) :
    lastPiece (childId sha parent call) = childSlotKey sha call.toolCallId :=
  lastPiece_append (childSlotKey_hex sha call.toolCallId).2

theorem invokeChildResearcher_ok {sha : Sha256} {parent : Option RunBinding} {registry : Option ChildCoordinates}
    {call : ChildCall} {next : ChildCoordinates} {child : RunBinding}
    (h : invokeChildResearcher sha parent registry call = .ok (next, child)) :
    call.toolCallId ≠ "" ∧ ∃ p, parent = some p ∧ child = childOf sha p call := by
  unfold invokeChildResearcher at h
  split at h
  · cases h
  · rename_i p
    split at h
    · cases h
    · rename_i hvalid
      have hid : call.toolCallId ≠ "" := fun hempty => hvalid (.inr (.inr hempty))
      refine ⟨hid, p, rfl, ?_⟩
      split at h
      · cases h
      · simp only at h
        split at h
        · split at h
          · cases h
          · cases h
            rfl
        · cases h
          rfl

/-- Every call that is let through has its own child, in the order of the calls. -/
theorem invokeChildren_ok {sha : Sha256} {parent : Option RunBinding} {registry : Option ChildCoordinates}
    {calls : List ChildCall} {children : List RunBinding}
    (h : invokeChildren sha parent registry calls = .ok children) :
    List.Forall₂ (fun call child => call.toolCallId ≠ "" ∧ ∃ p, child = childOf sha p call) calls children := by
  induction calls generalizing registry children with
  | nil =>
    cases h
    exact .nil
  | cons call calls ih =>
    obtain ⟨⟨next, child⟩, hcall, h⟩ := bind_ok.mp h
    obtain ⟨rest, hrest, h⟩ := bind_ok.mp h
    cases h
    obtain ⟨hid, p, -, hchild⟩ := invokeChildResearcher_ok hcall
    exact .cons ⟨hid, p, hchild⟩ (ih hrest)

/-! ## Slots and the messages they came from -/

/-- The tool message of the research a call conducted. -/
def AnswersCall (id : String) (m : SupervisorMessage) : Prop := ConductsResearch m ∧ m.toolCallId.strOr = id

instance (id : String) : DecidablePred (AnswersCall id) := fun _ => instDecidableAnd

/-- A slot beside its message and note. -/
structure SlotFrom (m : SupervisorMessage) (note : String) (slot : NoteSlot) : Prop where
  content : slot.content = note ∧ m.content.strOr = note
  toolCallId : slot.toolCallId = if ConductsResearch m then m.toolCallId.strOr else ""

theorem slotOf_ok {m : SupervisorMessage} {note : String} {i : ℕ} {slot : NoteSlot}
    (h : slotOf ((m, note), i) = .ok slot) : slot.ordinal = i ∧ SlotFrom m note slot := by
  unfold slotOf at h
  split at h
  · cases h
  · rename_i hcontent
    cases h
    exact ⟨rfl, ⟨rfl, not_not.mp hcontent⟩, rfl⟩

/-- The slots stand in the order of the notes, and each is numbered by its place. -/
theorem noteSlots_ok {messages : List SupervisorMessage} {notes : List String} {slots : List NoteSlot}
    (h : noteSlotsFromSupervisorMessages messages notes = .ok slots) :
    slots.map (·.content) = notes ∧ ∀ i, ∀ slot, slots[i]? = some slot →
      slot.ordinal = i ∧ ∃ m, (messages.filter (·.isTool))[i]? = some m ∧ SlotFrom m slot.content slot := by
  simp only [noteSlotsFromSupervisorMessages] at h
  split at h
  · cases h
  · rename_i hlength
    have hsame : (messages.filter (·.isTool)).length = notes.length := not_not.mp hlength
    have hpairs := mapM_forall₂.mp h
    have hslot : ∀ i slot, slots[i]? = some slot → ∃ m note, (messages.filter (·.isTool))[i]? = some m ∧
        notes[i]? = some note ∧ slot.ordinal = i ∧ SlotFrom m note slot := by
      intro i slot hi
      obtain ⟨hlt, hget⟩ := List.getElem?_eq_some_iff.mp hi
      have hlt' : i < (((messages.filter (·.isTool)).zip notes).zipIdx).length := hpairs.length_eq ▸ hlt
      have hok := List.Forall₂.get hpairs hlt' hlt
      simp only [List.get_eq_getElem, List.getElem_zipIdx, Nat.zero_add] at hok
      rw [hget] at hok
      have hzip : i < ((messages.filter (·.isTool)).zip notes).length := by simpa using hlt'
      rw [List.length_zip, ← hsame, Nat.min_self] at hzip
      rw [List.getElem_zip] at hok
      obtain ⟨hordinal, hfrom⟩ := slotOf_ok hok
      exact ⟨_, _, List.getElem?_eq_getElem hzip, List.getElem?_eq_getElem (hsame ▸ hzip), hordinal, hfrom⟩
    refine ⟨List.ext_getElem? fun i => ?_, fun i slot hi => ?_⟩
    · rw [List.getElem?_map]
      cases hi : slots[i]? with
      | some slot =>
        obtain ⟨m, note, -, hnote, -, hfrom⟩ := hslot i slot hi
        rw [hnote, Option.map_some, hfrom.content.1]
      | none =>
        have hlen : slots.length = notes.length := by
          rw [← hpairs.length_eq, List.length_zipIdx, List.length_zip, hsame, Nat.min_self]
        rw [List.getElem?_eq_none_iff, hlen] at hi
        rw [Option.map_none, List.getElem?_eq_none_iff.mpr hi]
    · obtain ⟨m, note, hm, -, hordinal, hfrom⟩ := hslot i slot hi
      exact ⟨hordinal, m, hm, ⟨⟨rfl, hfrom.content.2.trans hfrom.content.1.symm⟩, hfrom.toolCallId⟩⟩

/-- Two lists that agree place by place satisfy their conditions equally often. -/
theorem length_filter_eq {α β : Type} {p : α → Prop} {q : β → Prop} [DecidablePred p] [DecidablePred q] {xs : List α}
    {ys : List β} (h : List.Forall₂ (fun x y => p x ↔ q y) xs ys) :
    (xs.filter fun x => p x).length = (ys.filter fun y => q y).length := by
  induction h with
  | nil => rfl
  | cons hxy _ ih =>
    rw [List.filter_cons, List.filter_cons]
    simp only [decide_eq_true_eq, hxy]
    split
    · rw [List.length_cons, List.length_cons, ih]
    · exact ih

theorem slots_forall₂ {messages : List SupervisorMessage} {notes : List String} {slots : List NoteSlot}
    (h : noteSlotsFromSupervisorMessages messages notes = .ok slots) :
    List.Forall₂ (fun slot m => SlotFrom m slot.content slot) slots (messages.filter (·.isTool)) := by
  have hlength : slots.length = (messages.filter (·.isTool)).length := by
    have hnotes := congrArg List.length (noteSlots_ok h).1
    rw [List.length_map] at hnotes
    rw [hnotes]
    by_contra hne
    simp only [noteSlotsFromSupervisorMessages, if_pos (Ne.symm hne)] at h
    cases h
  refine List.forall₂_iff_get.mpr ⟨hlength, fun i hi hi' => ?_⟩
  obtain ⟨-, m, hm, hfrom⟩ := (noteSlots_ok h).2 i slots[i] (List.getElem?_eq_getElem hi)
  rw [List.getElem?_eq_getElem hi'] at hm
  obtain rfl := Option.some.inj hm
  exact hfrom

/-! ## A child's own slot -/

section
variable {sha : Sha256}

/-- The truncated hashes of these ids are told apart. -/
def KeysApart (sha : Sha256) (ids : List String) : Prop :=
  ∀ a ∈ ids, ∀ b ∈ ids, childSlotKey sha a = childSlotKey sha b → a = b

/-- The tool-call ids whose research the messages answer. -/
def answeredIds (messages : List SupervisorMessage) : List String :=
  ((messages.filter fun m => ConductsResearch m).map (·.toolCallId.strOr)).filter (· ≠ "")

/-- What the envelope says of the child of a call. -/
structure Attributed (sha : Sha256) (messages : List SupervisorMessage) (notes : List String) (slots : List NoteSlot)
    (call : ChildCall) (child : RunBinding) : Prop where
  found : ∀ slot, slotFor sha slots child.researcherId = some slot →
    ∃ m, (messages.filter (·.isTool))[slot.ordinal]? = some m ∧ AnswersCall call.toolCallId m ∧
      m.content.strOr = slot.content ∧ notes[slot.ordinal]? = some slot.content ∧ slot.toolCallId = call.toolCallId
  refused : slotFor sha slots child.researcherId = none ↔
    ((messages.filter (·.isTool)).filter fun m => AnswersCall call.toolCallId m).length ≠ 1
  substituted : ∀ slot, slotFor sha slots child.researcherId = some slot → ∀ replacement,
    substitute slots slot replacement = .ok (notes.set slot.ordinal replacement)

theorem slotFor_child {slots : List NoteSlot} {parent : RunBinding} {call : ChildCall} (hid : call.toolCallId ≠ "")
    (hapart : KeysApart sha (call.toolCallId :: (slots.map (·.toolCallId)).filter (· ≠ ""))) :
    slotFor sha slots (childOf sha parent call).researcherId =
      match slots.filter fun slot => slot.toolCallId = call.toolCallId with
      | [slot] => some slot
      | _ => none := by
  have hkey : lastPiece (childOf sha parent call).researcherId = childSlotKey sha call.toolCallId :=
    lastPiece_childId sha parent call
  have hfilter : (slots.filter fun slot =>
      slot.slotKey sha ≠ "" ∧ slot.slotKey sha = childSlotKey sha call.toolCallId) = slots.filter fun slot => slot.toolCallId = call.toolCallId := by
    refine List.filter_congr fun slot hslot => decide_eq_decide.mpr ?_
    unfold NoteSlot.slotKey
    by_cases hempty : slot.toolCallId = ""
    · rw [if_pos hempty]
      exact iff_of_false (fun h => h.1 rfl) fun h => hid (h ▸ hempty)
    · rw [if_neg hempty]
      constructor
      · rintro ⟨-, hsame⟩
        have hmem : slot.toolCallId ∈ (slots.map (·.toolCallId)).filter (· ≠ "") :=
          List.mem_filter.mpr ⟨List.mem_map_of_mem hslot, by simpa using hempty⟩
        exact hapart _ (List.mem_cons_of_mem _ hmem) _ List.mem_cons_self hsame
      · intro hsame
        exact ⟨(childSlotKey_hex sha _).1, by rw [hsame]⟩
  unfold slotFor
  simp only [hkey, if_neg (childSlotKey_hex sha call.toolCallId).1, hfilter]

/-- A slot with a tool-call id is the slot of research that was conducted. -/
theorem mem_answeredIds {messages : List SupervisorMessage} {notes : List String} {slots : List NoteSlot}
    (hslots : noteSlotsFromSupervisorMessages messages notes = .ok slots) {slot : NoteSlot} (hslot : slot ∈ slots)
    (hne : slot.toolCallId ≠ "") : slot.toolCallId ∈ answeredIds messages := by
  obtain ⟨i, hi⟩ := List.getElem?_of_mem hslot
  obtain ⟨-, m, hm, hfrom⟩ := (noteSlots_ok hslots).2 i slot hi
  have hmem : m ∈ messages := List.mem_of_mem_filter (List.mem_of_getElem? hm)
  have htool := hfrom.toolCallId
  split at htool
  · rename_i hconducts
    have hanswer : m ∈ messages.filter fun m => ConductsResearch m :=
      List.mem_filter.mpr ⟨hmem, decide_eq_true hconducts⟩
    exact List.mem_filter.mpr ⟨htool ▸ List.mem_map_of_mem hanswer, by simpa using hne⟩
  · exact absurd htool hne

theorem SlotFrom.answers_iff {m : SupervisorMessage} {note : String} {slot : NoteSlot} (h : SlotFrom m note slot)
    {id : String} (hid : id ≠ "") : slot.toolCallId = id ↔ AnswersCall id m := by
  rw [h.toolCallId, AnswersCall]
  split
  · rename_i hconducts
    exact ⟨fun hsame => ⟨hconducts, hsame⟩, fun hanswer => hanswer.2⟩
  · rename_i hother
    exact iff_of_false (fun hempty => hid hempty.symm) fun hanswer => hother hanswer.1

/-- The slot found for a child is the only one with the id of its call, and stands at its ordinal. -/
theorem slotFor_some {messages : List SupervisorMessage} {notes : List String} {slots : List NoteSlot}
    (hslots : noteSlotsFromSupervisorMessages messages notes = .ok slots) {parent : RunBinding} {call : ChildCall}
    (hid : call.toolCallId ≠ "")
    (hapart : KeysApart sha (call.toolCallId :: (slots.map (·.toolCallId)).filter (· ≠ ""))) {slot : NoteSlot}
    (h : slotFor sha slots (childOf sha parent call).researcherId = some slot) :
    slot.toolCallId = call.toolCallId ∧ slots[slot.ordinal]? = some slot := by
  rw [slotFor_child hid hapart] at h
  split at h
  · rename_i only honly
    obtain rfl := Option.some.inj h
    have hmem : only ∈ slots.filter fun slot => slot.toolCallId = call.toolCallId := honly ▸ List.mem_singleton_self only
    obtain ⟨hslot, hsame⟩ := List.mem_filter.mp hmem
    obtain ⟨i, hi⟩ := List.getElem?_of_mem hslot
    exact ⟨of_decide_eq_true hsame, ((noteSlots_ok hslots).2 i only hi).1.symm ▸ hi⟩
  · cases h

theorem attributed {messages : List SupervisorMessage} {notes : List String} {slots : List NoteSlot}
    (hslots : noteSlotsFromSupervisorMessages messages notes = .ok slots) {parent : RunBinding} {call : ChildCall}
    (hid : call.toolCallId ≠ "") (hapart : KeysApart sha (call.toolCallId :: answeredIds messages)) :
    Attributed sha messages notes slots call (childOf sha parent call) := by
  have hkeys : KeysApart sha (call.toolCallId :: (slots.map (·.toolCallId)).filter (· ≠ "")) := by
    have hwithin : ∀ id ∈ call.toolCallId :: (slots.map (·.toolCallId)).filter (· ≠ ""),
        id ∈ call.toolCallId :: answeredIds messages := by
      intro id hmem
      rcases List.mem_cons.mp hmem with rfl | hmem
      · exact List.mem_cons_self
      · obtain ⟨hmem, hne⟩ := List.mem_filter.mp hmem
        obtain ⟨slot, hslot, rfl⟩ := List.mem_map.mp hmem
        exact List.mem_cons_of_mem _ (mem_answeredIds hslots hslot (by simpa using hne))
    exact fun a ha b hb => hapart a (hwithin a ha) b (hwithin b hb)
  obtain ⟨hnotes, hplaces⟩ := noteSlots_ok hslots
  refine ⟨fun slot h => ?_, ?_, fun slot h replacement => ?_⟩
  · obtain ⟨hsame, hi⟩ := slotFor_some hslots hid hkeys h
    obtain ⟨-, m, hm, hfrom⟩ := hplaces _ slot hi
    have hnote : notes[slot.ordinal]? = some slot.content := by rw [← hnotes, List.getElem?_map, hi, Option.map_some]
    exact ⟨m, hm, (hfrom.answers_iff hid).mp hsame, hfrom.content.2, hnote, hsame⟩
  · have hcount : (slots.filter fun slot => slot.toolCallId = call.toolCallId).length =
        ((messages.filter (·.isTool)).filter fun m => AnswersCall call.toolCallId m).length :=
      length_filter_eq ((slots_forall₂ hslots).imp fun slot m hfrom => hfrom.answers_iff hid)
    rw [← hcount, slotFor_child hid hkeys]
    split
    · rename_i slot honly
      rw [honly]
      simp
    · rename_i hnone
      refine iff_of_true rfl fun hone => ?_
      obtain ⟨slot, hslot⟩ := List.length_eq_one_iff.mp hone
      exact hnone slot hslot
  · obtain ⟨-, hi⟩ := slotFor_some hslots hid hkeys h
    obtain ⟨hlt, -⟩ := List.getElem?_eq_some_iff.mp hi
    unfold substitute
    rw [if_neg (Nat.not_le.mpr hlt), hnotes]

/-- The ids of the attributed slots are, in their order, among the ids of the calls. -/
theorem attributed_sublist {messages : List SupervisorMessage} {notes : List String} {slots : List NoteSlot}
    {calls : List ChildCall} {children : List RunBinding}
    (h : List.Forall₂ (Attributed sha messages notes slots) calls children) :
    ((children.filterMap fun child => slotFor sha slots child.researcherId).map (·.toolCallId)).Sublist
      (calls.map (·.toolCallId)) := by
  induction h with
  | nil => exact List.Sublist.slnil
  | @cons call child calls children hcall _ ih =>
    rw [List.map_cons, List.filterMap_cons]
    cases hfor : slotFor sha slots child.researcherId with
    | none => exact ih.cons _
    | some slot =>
      obtain ⟨m, -, -, -, -, hsame⟩ := hcall.found slot hfor
      rw [List.map_cons, hsame]
      exact ih.cons_cons _

/-- The children of a run are attributed the notes of their own calls, each note to one child at most. -/
theorem children_attributed {messages : List SupervisorMessage} {notes : List String} {slots : List NoteSlot}
    (hslots : noteSlotsFromSupervisorMessages messages notes = .ok slots) {parent : Option RunBinding}
    {registry : Option ChildCoordinates} {calls : List ChildCall} {children : List RunBinding}
    (hchildren : invokeChildren sha parent registry calls = .ok children)
    (hdistinct : (calls.map (·.toolCallId)).Nodup)
    (hapart : KeysApart sha (calls.map (·.toolCallId) ++ answeredIds messages)) :
    List.Forall₂ (Attributed sha messages notes slots) calls children ∧
      (children.filterMap fun child => slotFor sha slots child.researcherId).Nodup := by
  have hone : ∀ call ∈ calls, KeysApart sha (call.toolCallId :: answeredIds messages) := by
    intro call hcall a ha b hb
    have hwithin : ∀ id ∈ call.toolCallId :: answeredIds messages,
        id ∈ calls.map (·.toolCallId) ++ answeredIds messages := by
      intro id hid
      rcases List.mem_cons.mp hid with rfl | hid
      · exact List.mem_append_left _ (List.mem_map_of_mem hcall)
      · exact List.mem_append_right _ hid
    exact hapart a (hwithin a ha) b (hwithin b hb)
  have hall : List.Forall₂ (Attributed sha messages notes slots) calls children := by
    refine ((List.forall₂_and_left calls children).mpr ⟨hone, invokeChildren_ok hchildren⟩).imp ?_
    rintro call child ⟨hkeys, hid, p, rfl⟩
    exact attributed hslots hid hkeys
  exact ⟨hall, List.Nodup.of_map _ ((attributed_sublist hall).nodup hdistinct)⟩

end

section
private def shaOfCalls : Sha256 where
  hex raw := if raw.size = 6 then "74196fe72e4cdc135c1033e05a2e020ca36c0f3697c0853d6d53567b51d9f58f"
    else "57219c23b736372ebcbcf4f6a42f4f134207634bad1f804c403e7e48cdc061d4"
  wellFormed raw := by split <;> decide

private def conducted (id content : String) : SupervisorMessage :=
  ⟨.text "tool", .text content, .text "ConductResearch", .text id⟩

private def thought : SupervisorMessage := ⟨.text "tool", .text "Noted.", .text "think_tool", .text "call_2"⟩

private def asked : SupervisorMessage := ⟨.text "ai", .text "", .missing, .missing⟩

private def root : RunBinding := ⟨"task-1", "root-0", "attempt-1", none⟩

/-- The notes of two children around a thought are each child's own. -/
theorem two_children_attributed :
    List.Forall₂ (Attributed shaOfCalls [asked, conducted "call_12" "B", thought, conducted "call_1" "A"]
        ["B", "Noted.", "A"] [⟨0, "B", "call_12"⟩, ⟨1, "Noted.", ""⟩, ⟨2, "A", "call_1"⟩])
      [⟨0, 0, "call_1"⟩, ⟨0, 1, "call_12"⟩]
      [childOf shaOfCalls root ⟨0, 0, "call_1"⟩, childOf shaOfCalls root ⟨0, 1, "call_12"⟩] ∧
    ([childOf shaOfCalls root ⟨0, 0, "call_1"⟩, childOf shaOfCalls root ⟨0, 1, "call_12"⟩].filterMap fun child =>
      slotFor shaOfCalls [⟨0, "B", "call_12"⟩, ⟨1, "Noted.", ""⟩, ⟨2, "A", "call_1"⟩] child.researcherId).Nodup := by
  have hslots : noteSlotsFromSupervisorMessages [asked, conducted "call_12" "B", thought, conducted "call_1" "A"]
      ["B", "Noted.", "A"] = .ok [⟨0, "B", "call_12"⟩, ⟨1, "Noted.", ""⟩, ⟨2, "A", "call_1"⟩] := rfl
  have hchildren : invokeChildren shaOfCalls (some root) (some Dict.empty)
      [⟨0, 0, "call_1"⟩, ⟨0, 1, "call_12"⟩] = .ok [childOf shaOfCalls root ⟨0, 0, "call_1"⟩,
        childOf shaOfCalls root ⟨0, 1, "call_12"⟩] := rfl
  exact children_attributed hslots hchildren (by decide) (by unfold KeysApart; decide +kernel)

/-- Two messages of one call: the child has notes, and is refused both. -/
theorem not_none_iff_unanswered :
    ¬ ∀ (sha : Sha256) (messages : List SupervisorMessage) (notes : List String) (slots : List NoteSlot)
      (parent : Option RunBinding) (registry : Option ChildCoordinates) (calls : List ChildCall)
      (children : List RunBinding),
      noteSlotsFromSupervisorMessages messages notes = .ok slots →
      invokeChildren sha parent registry calls = .ok children →
      (calls.map (·.toolCallId)).Nodup →
      KeysApart sha (calls.map (·.toolCallId) ++ answeredIds messages) →
      List.Forall₂ (fun call child => slotFor sha slots child.researcherId = none ↔
        ∀ m ∈ messages.filter (·.isTool), ¬ AnswersCall call.toolCallId m) calls children := by
  intro h
  have hclaim := h shaOfCalls [conducted "call_1" "A", conducted "call_1" "B"] ["A", "B"]
    [⟨0, "A", "call_1"⟩, ⟨1, "B", "call_1"⟩] (some root) (some Dict.empty) [⟨0, 0, "call_1"⟩]
    [childOf shaOfCalls root ⟨0, 0, "call_1"⟩] rfl rfl (by decide) (by unfold KeysApart; decide +kernel)
  obtain ⟨hcall, -⟩ := List.forall₂_cons.mp hclaim
  have hrefused : slotFor shaOfCalls [⟨0, "A", "call_1"⟩, ⟨1, "B", "call_1"⟩]
      (childOf shaOfCalls root ⟨0, 0, "call_1"⟩).researcherId = none := by
    decide +kernel
  exact hcall.mp hrefused (conducted "call_1" "A") (by decide) (by decide)

end
end Shapeflow.NoteSlots
