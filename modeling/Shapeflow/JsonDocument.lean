import Shapeflow.CanonicalJson
import Shapeflow.PyDict

set_option autoImplicit false

/-!
# Documents

Dictionaries with fixed keys: their fields looked up before and after the keys are
sorted, and the digest, which does not see the order.
-/
namespace Shapeflow.Py

/-- `v[key]` for a constant text. -/
def Json.item (v : Json) (key : String) : Except PyError Json :=
  match v with
  | .obj members => (member members (pyStr key)).elim (.error .keyError) .ok
  | _ => .error .typeError

/-- `v[i]` for a constant index. -/
def Json.at (v : Json) (i : ℕ) : Except PyError Json :=
  match v with
  | .arr items => (items[i]?).elim (.error .indexError) .ok
  | .str s => (s[i]?).elim (.error .indexError) fun c => .ok (.str [c])
  | .obj _ => .error .keyError
  | _ => .error .typeError

/-- `v == text` -/
def equalsText (s : PyStr) : Json → Bool
  | .str t => t = s
  | _ => false

/-- A dictionary display with constant keys. -/
def document (fields : List (String × Json)) : Json := .obj (fields.map fun e => (pyStr e.1, e.2))

def field? (fields : List (String × Json)) (key : String) : Option Json :=
  (fields.find? fun e => e.1 = key).map Prod.snd

@[simp] theorem field?_cons_self (key : String) (v : Json) (fields : List (String × Json)) :
    field? ((key, v) :: fields) key = some v := by
  simp [field?]

theorem field?_cons_ne {key key' : String} (h : key' ≠ key) (v : Json) (fields : List (String × Json)) :
    field? ((key', v) :: fields) key = field? fields key := by
  simp [field?, h]

@[simp] theorem field?_nil (key : String) : field? [] key = none := rfl

theorem equalsText_iff {s : PyStr} {v : Json} : equalsText s v = true ↔ v = .str s := by
  cases v <;> simp [equalsText]

/-! ## Looking up -/

theorem member_map (fields : List (String × Json)) (key : String) :
    member (fields.map fun e => (pyStr e.1, e.2)) (pyStr key) = field? fields key := by
  unfold member field?
  induction fields with
  | nil => rfl
  | cons e fields ih =>
    rw [List.map_cons]
    by_cases h : e.1 = key
    · rw [List.find?_cons_of_pos (by simpa using congrArg pyStr h), List.find?_cons_of_pos (by simpa using h)]
      rfl
    · have hne : pyStr e.1 ≠ pyStr key := fun heq => h (pyStr_injective heq)
      rw [List.find?_cons_of_neg (by simpa using hne), List.find?_cons_of_neg (by simpa using h)]
      exact ih

theorem item_document (fields : List (String × Json)) (key : String) :
    (document fields).item key = (field? fields key).elim (.error .keyError) .ok := by
  rw [← member_map]
  rfl

theorem get_document (fields : List (String × Json)) (key : String) (default : Json) :
    (document fields).get (pyStr key) default = .ok ((field? fields key).getD default) := by
  rw [← member_map]
  rfl

theorem member_of_mem {ms : List (PyStr × Json)} (hms : (ms.map Prod.fst).Nodup) {key : PyStr} {v : Json}
    (h : (key, v) ∈ ms) : member ms key = some v := by
  unfold member
  cases hfind : ms.find? fun e => e.1 = key with
  | none =>
    have hno := List.find?_eq_none.mp hfind (key, v) h
    simp at hno
  | some e =>
    have hkey : e.1 = key := by simpa using List.find?_some hfind
    have heq : e = (key, v) := List.inj_on_of_nodup_map hms (List.mem_of_find?_eq_some hfind) h hkey
    rw [heq]
    rfl

theorem member_none {ms : List (PyStr × Json)} {key : PyStr} (h : key ∉ ms.map Prod.fst) : member ms key = none := by
  unfold member
  rw [List.find?_eq_none.mpr]
  · rfl
  · intro e he hkey
    exact h (List.mem_map.mpr ⟨e, he, by simpa using hkey⟩)

/-- Sorting the keys moves no value to another key. -/
theorem member_sorted {ms : List (PyStr × Json)} (hms : (ms.map Prod.fst).Nodup) (key : PyStr) :
    member (sorted ms) key = member ms key := by
  have hsorted : ((sorted ms).map Prod.fst).Nodup := (keys_sorted ms).nodup_iff.mpr hms
  by_cases h : key ∈ ms.map Prod.fst
  · obtain ⟨e, he, rfl⟩ := List.mem_map.mp h
    rw [member_of_mem hms he, member_of_mem hsorted (mem_sorted.mpr he)]
  · rw [member_none h, member_none fun hin => h ((keys_sorted ms).mem_iff.mp hin)]

theorem member_map_snd (f : Json → Json) (ms : List (PyStr × Json)) (key : PyStr) :
    member (ms.map fun e => (e.1, f e.2)) key = (member ms key).map f := by
  unfold member
  induction ms with
  | nil => rfl
  | cons e ms ih =>
    rw [List.map_cons]
    by_cases h : e.1 = key
    · rw [List.find?_cons_of_pos (by simpa using h), List.find?_cons_of_pos (by simpa using h)]
      rfl
    · rw [List.find?_cons_of_neg (by simpa using h), List.find?_cons_of_neg (by simpa using h)]
      exact ih

/-- The keys of a document differ. -/
def DistinctFields (fields : List (String × Json)) : Prop := (fields.map Prod.fst).Nodup

theorem keys_document {fields : List (String × Json)} (h : DistinctFields fields) :
    ((fields.map fun e => (pyStr e.1, e.2)).map Prod.fst).Nodup := by
  rw [List.map_map]
  have hmap : fields.map (Prod.fst ∘ fun e => (pyStr e.1, e.2)) = (fields.map Prod.fst).map pyStr := by
    rw [List.map_map]
    rfl
  rw [hmap]
  exact h.map pyStr_injective

theorem sortKeys_document (fields : List (String × Json)) :
    sortKeys (document fields) = .obj (sorted (fields.map fun e => (pyStr e.1, sortKeys e.2))) := by
  have hmembers : sortMembers (fields.map fun e => (pyStr e.1, e.2)) =
      fields.map fun e => (pyStr e.1, sortKeys e.2) := by
    rw [sortMembers_eq_map, List.map_map]
    rfl
  change Json.obj (sorted (sortMembers _)) = _
  rw [hmembers]

theorem sortKeys_arr (vs : List Json) : sortKeys (.arr vs) = .arr (vs.map sortKeys) := by
  rw [sortKeys, sortItems_eq_map]

theorem member_sortKeys {fields : List (String × Json)} (h : DistinctFields fields) (key : String) :
    member (sorted (fields.map fun e => (pyStr e.1, sortKeys e.2))) (pyStr key) = (field? fields key).map sortKeys := by
  have hmap : fields.map (fun e => (pyStr e.1, sortKeys e.2)) =
      (fields.map fun e => (pyStr e.1, e.2)).map fun e => (e.1, sortKeys e.2) := by
    rw [List.map_map]
    rfl
  have hkeys : ((fields.map fun e => (pyStr e.1, sortKeys e.2)).map Prod.fst).Nodup := by
    have hdistinct := keys_document h
    rw [List.map_map] at hdistinct ⊢
    exact hdistinct
  rw [member_sorted hkeys, hmap, member_map_snd, member_map]

theorem item_sortKeys {fields : List (String × Json)} (h : DistinctFields fields) (key : String) :
    (sortKeys (document fields)).item key = (field? fields key).elim (.error .keyError) fun v => .ok (sortKeys v) := by
  rw [sortKeys_document]
  change (member (sorted _) (pyStr key)).elim _ _ = _
  rw [member_sortKeys h]
  cases field? fields key <;> rfl

theorem get_sortKeys {fields : List (String × Json)} (h : DistinctFields fields) (key : String) (default : Json) :
    (sortKeys (document fields)).get (pyStr key) default =
      .ok (((field? fields key).map sortKeys).getD default) := by
  rw [sortKeys_document]
  change Except.ok ((member (sorted _) (pyStr key)).getD default) = _
  rw [member_sortKeys h]

/-- Documents whose fields are equal, the order of keys apart. -/
theorem sortKeys_document_congr {fields fields' : List (String × Json)}
    (h : fields.map (fun e => (e.1, sortKeys e.2)) = fields'.map fun e => (e.1, sortKeys e.2)) :
    sortKeys (document fields) = sortKeys (document fields') := by
  have hmap : ∀ fs : List (String × Json), fs.map (fun e => (pyStr e.1, sortKeys e.2)) =
      (fs.map fun e => (e.1, sortKeys e.2)).map fun e => (pyStr e.1, e.2) := by
    intro fs
    rw [List.map_map]
    rfl
  rw [sortKeys_document, sortKeys_document, hmap, hmap, h]

theorem pyStr_encodable (s : String) : Encodable (pyStr s) := by
  intro x hx
  obtain ⟨ch, -, rfl⟩ := List.mem_map.mp hx
  have hvalid := ch.valid
  have hnat : ch.toNat = ch.val.toNat := rfl
  simp only [UInt32.isValidChar, Nat.isValidChar, ← hnat] at hvalid
  have hval : (codePoint ch.toNat).val = ch.toNat := codePoint_of_lt (by omega)
  simp only [isHigh, isLow, hval, decide_eq_true_eq]
  omega

end Shapeflow.Py

namespace Shapeflow.Canonical
open Py Utf8

/-! ## Digests -/

mutual

theorem ofJson_injective : ∀ v w : Json, ofJson v = ofJson w → v = w
  | .null, w, h => by
    cases w with
    | null => rfl
    | _ => cases h
  | .bool b, w, h => by
    cases w with
    | bool b' =>
      cases h
      rfl
    | _ => cases h
  | .int n, w, h => by
    cases w with
    | int n' =>
      cases h
      rfl
    | _ => cases h
  | .float x, w, h => by
    cases w with
    | float x' =>
      cases h
      rfl
    | _ => cases h
  | .str s, w, h => by
    cases w with
    | str s' =>
      cases h
      rfl
    | _ => cases h
  | .arr vs, w, h => by
    cases w with
    | arr ws => rw [ofItems_injective vs ws (Value.list.inj h)]
    | _ => cases h
  | .obj ms, w, h => by
    cases w with
    | obj ns => rw [ofMembers_injective ms ns (Value.dict.inj h)]
    | _ => cases h

theorem ofItems_injective : ∀ vs ws : List Json, ofItems vs = ofItems ws → vs = ws
  | [], ws, h => by
    cases ws with
    | nil => rfl
    | cons w ws => cases h
  | v :: vs, ws, h => by
    cases ws with
    | nil => cases h
    | cons w ws =>
      obtain ⟨hv, hvs⟩ := List.cons.inj h
      rw [ofJson_injective v w hv, ofItems_injective vs ws hvs]

theorem ofMembers_injective : ∀ ms ns : List (PyStr × Json), ofMembers ms = ofMembers ns → ms = ns
  | [], ns, h => by
    cases ns with
    | nil => rfl
    | cons e ns => cases h
  | (k, v) :: ms, ns, h => by
    cases ns with
    | nil => cases h
    | cons e ns =>
      obtain ⟨k', w⟩ := e
      obtain ⟨he, hms⟩ := List.cons.inj h
      obtain ⟨hk, hv⟩ := Prod.mk.inj he
      rw [Key.str.inj hk, ofJson_injective v w hv, ofMembers_injective ms ns hms]

end

mutual

theorem validate_admitted {floats : FloatText} : ∀ (v : Json) (path : PyStr), Admitted floats v →
    validate path (ofJson v) = .ok v ∧ keysEncodable v = true
  | .null, _, _ | .bool _, _, _ | .int _, _, _ => ⟨rfl, rfl⟩
  | .float x, path, h => by
    obtain ⟨q, rfl, -⟩ := h
    have hfinite : ¬ notFinite (.finite q) := by
      rintro (h | h | h) <;> cases h
    refine ⟨?_, rfl⟩
    rw [ofJson, validate, if_neg hfinite]
  | .str s, path, h => ⟨if_pos h, rfl⟩
  | .arr vs, path, h => by
    obtain ⟨hvalid, hkeys⟩ := validateItems_admitted vs path 0 h
    exact ⟨by rw [ofJson, validate, hvalid], hkeys⟩
  | .obj ms, path, h => by
    obtain ⟨hvalid, hkeys⟩ := validateMembers_admitted ms path h.2
    exact ⟨by rw [ofJson, validate, hvalid], hkeys⟩

theorem validateItems_admitted {floats : FloatText} : ∀ (vs : List Json) (path : PyStr) (i : ℕ),
    AdmittedItems floats vs → validateItems path i (ofItems vs) = .ok vs ∧ keysEncodableItems vs = true
  | [], _, _, _ => ⟨rfl, rfl⟩
  | v :: vs, path, i, h => by
    obtain ⟨hv, hkey⟩ := validate_admitted v (itemPath path i) h.1
    obtain ⟨hvs, hkeys⟩ := validateItems_admitted vs path (i + 1) h.2
    refine ⟨by rw [ofItems, validateItems, hv, hvs], ?_⟩
    rw [keysEncodableItems, hkey, hkeys]
    rfl

theorem validateMembers_admitted {floats : FloatText} : ∀ (ms : List (PyStr × Json)) (path : PyStr),
    AdmittedMembers floats ms → validateMembers path (ofMembers ms) = .ok ms ∧ keysEncodableMembers ms = true
  | [], _, _ => ⟨rfl, rfl⟩
  | (k, v) :: ms, path, h => by
    obtain ⟨hv, hkey⟩ := validate_admitted v (memberPath path k) h.2.1
    obtain ⟨hms, hkeys⟩ := validateMembers_admitted ms path h.2.2
    refine ⟨by rw [ofMembers, validateMembers, hv, hms], ?_⟩
    rw [keysEncodableMembers, hkey, hkeys, decide_eq_true h.1]
    rfl

end

mutual

theorem admitted_of_sortKeys {floats : FloatText} : ∀ v : Json, Admitted floats (sortKeys v) → Admitted floats v
  | .null, h | .bool _, h | .int _, h | .float _, h | .str _, h => h
  | .arr vs, h => admittedItems_of_sort vs h
  | .obj ms, h => by
    have hperm := keys_sorted (sortMembers ms)
    rw [keys_sortMembers] at hperm
    refine ⟨hperm.nodup_iff.mp h.1, admittedMembers_of_sort ms (admittedMembers_iff.mpr fun e he => ?_)⟩
    exact admittedMembers_iff.mp h.2 e (mem_sorted.mpr he)

theorem admittedItems_of_sort {floats : FloatText} : ∀ vs : List Json, AdmittedItems floats (sortItems vs) →
    AdmittedItems floats vs
  | [], h => h
  | v :: vs, h => ⟨admitted_of_sortKeys v h.1, admittedItems_of_sort vs h.2⟩

theorem admittedMembers_of_sort {floats : FloatText} : ∀ ms : List (PyStr × Json),
    AdmittedMembers floats (sortMembers ms) → AdmittedMembers floats ms
  | [], h => h
  | (_, v) :: ms, h => ⟨h.1, admitted_of_sortKeys v h.2.1, admittedMembers_of_sort ms h.2.2⟩

end

theorem admittedItems_iff {floats : FloatText} {vs : List Json} :
    AdmittedItems floats vs ↔ ∀ v ∈ vs, Admitted floats v := by
  induction vs with
  | nil => simp [AdmittedItems]
  | cons v vs ih => simp [AdmittedItems, ih]

theorem admitted_text (floats : FloatText) (s : String) : Admitted floats (.str (pyStr s)) := pyStr_encodable s

theorem admitted_document {floats : FloatText} {fields : List (String × Json)} (hfields : DistinctFields fields)
    (h : ∀ e ∈ fields, Admitted floats e.2) : Admitted floats (document fields) := by
  refine ⟨keys_document hfields, admittedMembers_iff.mpr fun e he => ?_⟩
  obtain ⟨field, hfield, rfl⟩ := List.mem_map.mp he
  exact ⟨pyStr_encodable _, h field hfield⟩

theorem admitted_fields {floats : FloatText} {fields : List (String × Json)} (h : Admitted floats (document fields)) :
    ∀ e ∈ fields, Admitted floats e.2 := by
  intro e he
  exact (admittedMembers_iff.mp h.2 (pyStr e.1, e.2) (List.mem_map.mpr ⟨e, he, rfl⟩)).2

theorem canonicalJson_admitted {floats : FloatText} {v : Json} (h : Admitted floats v) :
    canonicalJson floats (ofJson v) = .ok (utf8 (canonicalText floats v)) := by
  obtain ⟨hvalid, hkeys⟩ := validate_admitted v [] h
  unfold canonicalJson
  rw [hvalid]
  exact if_pos hkeys

theorem admitted_of_canonicalJson {floats : FloatText} {v : Json} {raw : ByteArray} (hv : IsPython floats (ofJson v))
    (h : canonicalJson floats (ofJson v) = .ok raw) : Admitted floats v := by
  obtain ⟨w, heq, hadmitted, -, -⟩ := canonicalJson_ok hv h
  rw [ofJson_injective v w heq]
  exact hadmitted

/-- The order of keys is not in the text. -/
theorem canonicalJson_sameValue {floats : FloatText} {v w : Json} (hv : Admitted floats v) (h : SameValue v w) :
    Admitted floats w ∧ canonicalJson floats (ofJson w) = canonicalJson floats (ofJson v) := by
  have hw : Admitted floats w := by
    apply admitted_of_sortKeys
    rw [← h]
    exact admitted_sortKeys v hv
  refine ⟨hw, ?_⟩
  rw [canonicalJson_admitted hw, canonicalJson_admitted hv, canonicalText, canonicalText, h]

/-- Values of one text differ in the order of keys at most. -/
theorem sameValue_of_text {floats : FloatText} {v w : Json} (hv : Admitted floats v) (hw : Admitted floats w)
    (h : canonicalText floats v = canonicalText floats w) : SameValue v w := by
  have hload := loads_canonicalText hv
  rw [h, loads_canonicalText hw] at hload
  exact (Option.some.inj hload).symm

theorem deriveId_sameValue {δ : Type} {sha256Hex : ByteArray → δ} {floats : FloatText} (domain : PyStr) {v w : Json}
    (hv : Admitted floats v) (h : SameValue v w) :
    deriveId sha256Hex floats domain (ofJson w) = deriveId sha256Hex floats domain (ofJson v) := by
  unfold deriveId
  rw [(canonicalJson_sameValue hv h).2]

theorem deriveId_admitted {δ : Type} {sha256Hex : ByteArray → δ} {floats : FloatText} {domain : PyStr} {v : Json}
    (hv : Admitted floats v) (hdomain : ¬ (domain = [] ∨ codePoint 31 ∈ domain ∨ codePoint 0 ∈ domain))
    (henc : Encodable domain) : ∃ raw, deriveId sha256Hex floats domain (ofJson v) = .ok (sha256Hex raw) := by
  have hpreimage : ∀ payload, ∃ raw, preimage domain payload = .ok raw := by
    intro payload
    unfold preimage
    rw [if_neg hdomain, if_pos henc]
    exact ⟨_, rfl⟩
  obtain ⟨raw, hraw⟩ := hpreimage (utf8 (canonicalText floats v))
  refine ⟨raw, ?_⟩
  rw [deriveId, canonicalJson_admitted hv]
  change (preimage domain _).map sha256Hex = _
  rw [hraw]
  rfl

theorem isPython_document {floats : FloatText} {fields : List (String × Json)} (hfields : DistinctFields fields)
    (h : ∀ e ∈ fields, IsPython floats (ofJson e.2)) : IsPython floats (ofJson (document fields)) := by
  have hmembers : ∀ fs : List (String × Json), (∀ e ∈ fs, IsPython floats (ofJson e.2)) →
      IsPythonMembers floats (ofMembers (fs.map fun e => (pyStr e.1, e.2))) := by
    intro fs hfs
    induction fs with
    | nil => trivial
    | cons e fs ih =>
      exact ⟨hfs e List.mem_cons_self, ih fun e' he' => hfs e' (List.mem_cons_of_mem _ he')⟩
  refine ⟨?_, hmembers fields h⟩
  rw [keys_ofMembers]
  exact (keys_document hfields).map fun _ _ => Key.str.inj

theorem field?_sameValue {fields fields' : List (String × Json)} (hfields : DistinctFields fields)
    (hfields' : DistinctFields fields') (h : SameValue (document fields) (document fields')) (key : String) :
    (field? fields key).map sortKeys = (field? fields' key).map sortKeys := by
  unfold SameValue at h
  rw [sortKeys_document, sortKeys_document, Json.obj.injEq] at h
  rw [← member_sortKeys hfields, ← member_sortKeys hfields', h]

/-- What is hashed for an identifier determines the value it identifies. -/
theorem sameValue_of_preimage {floats : FloatText} {domain : PyStr} {v w : Json} {payload payload' raw : ByteArray}
    (hv : IsPython floats (ofJson v)) (hw : IsPython floats (ofJson w))
    (hpayload : canonicalJson floats (ofJson v) = .ok payload) (hpayload' : canonicalJson floats (ofJson w) = .ok payload')
    (hraw : preimage domain payload = .ok raw) (hraw' : preimage domain payload' = .ok raw) : SameValue v w := by
  obtain ⟨j, -, -, htext, -⟩ := canonicalJson_ok hv hpayload
  obtain ⟨k, -, -, htext', -⟩ := canonicalJson_ok hw hpayload'
  rw [htext] at hpayload hraw
  rw [htext'] at hpayload' hraw'
  rw [← (preimage_injective hraw hraw').2] at hpayload'
  obtain ⟨j', k', hj, hk, hsame⟩ := canonicalJson_same hv hw hpayload hpayload'
  rw [ofJson_injective v j' hj, ofJson_injective w k' hk]
  exact hsame

/-! ## Admitted values load -/

theorem joined_of_encodable : ∀ {s : PyStr}, Encodable s → Joined s
  | [], _ | [_], _ => trivial
  | hi :: lo :: r, h => by
    obtain ⟨hhi, hrest⟩ := List.forall_mem_cons.mp h
    exact ⟨fun hpair => hhi (.inl hpair.1), joined_of_encodable hrest⟩

mutual

theorem loaded_of_admitted {floats : FloatText} : ∀ v : Json, Admitted floats v → Loaded floats v
  | .null, _ | .bool _, _ | .int _, _ => trivial
  | .float x, h => by
    obtain ⟨q, rfl, hq⟩ := h
    exact hq
  | .str _, h => joined_of_encodable h
  | .arr vs, h => loadedItems_of_admitted vs h
  | .obj ms, h => ⟨h.1, loadedMembers_of_admitted ms h.2⟩

theorem loadedItems_of_admitted {floats : FloatText} : ∀ vs : List Json, AdmittedItems floats vs →
    LoadedItems floats vs
  | [], _ => trivial
  | v :: vs, h => ⟨loaded_of_admitted v h.1, loadedItems_of_admitted vs h.2⟩

theorem loadedMembers_of_admitted {floats : FloatText} : ∀ ms : List (PyStr × Json), AdmittedMembers floats ms →
    LoadedMembers floats ms
  | [], _ => trivial
  | (_, v) :: ms, h => ⟨joined_of_encodable h.1, loaded_of_admitted v h.2.1, loadedMembers_of_admitted ms h.2.2⟩

end

end Shapeflow.Canonical
