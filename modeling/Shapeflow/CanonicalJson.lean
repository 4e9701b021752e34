import Shapeflow.Fallible
import Shapeflow.PyJson
import Shapeflow.Utf8

set_option autoImplicit false

/-!
# Canonical JSON

`canonical_json` refuses every value that has more than one encoding and writes
the others without spaces, keys sorted, text outside ASCII as UTF-8. What it
wrote loads back as the value, up to the order of its keys.
-/
namespace Shapeflow.Canonical
open Py Utf8

/-! ## Values before validation -/

inductive Key
  | str (s : PyStr)
  /-- Any other hashable: its `repr` and the name of its type. -/
  | other (repr typeName : String)

/-- A Python value as `canonical_json` meets it; of a value it refuses it reads the type alone. -/
inductive Value
  | null
  | bool (b : Bool)
  | int (n : ℤ)
  | float (x : PyFloat)
  | str (s : PyStr)
  | dict (members : List (Key × Value))
  | list (items : List Value)
  | tuple
  | set
  | frozenset
  | bytes
  | bytearray
  | other (typeName : String)

inductive Why
  | surrogates
  | nonFinite (x : PyFloat)
  | keyNotText (repr typeName : String)
  | notAList (typeName : String)
  | rawBytes
  | notSerializable (typeName : String)
deriving DecidableEq, Repr

/-- `math.isnan(value) or math.isinf(value)` -/
def notFinite (x : PyFloat) : Prop := x = .nan ∨ x = .infinity ∨ x = .negInfinity

instance (x : PyFloat) : Decidable (notFinite x) := inferInstanceAs (Decidable (_ ∨ _))

/-- `repr` of a float that is not finite. -/
def nonFiniteText (x : PyFloat) : String :=
  if x = .nan then "nan" else if x = .infinity then "inf" else "-inf"

def Why.text : Why → String
  | .surrogates => "string contains unpaired surrogates and is not encodable"
  | .nonFinite x => "non-finite float " ++ nonFiniteText x ++ " cannot appear in a canonical value"
  | .keyNotText repr typeName => "mapping key " ++ repr ++ " is " ++ typeName ++
      ", not str; non-string keys collide once JSON coerces them"
  | .notAList typeName => typeName ++ " is not allowed; use a list (tuple would silently " ++
      "encode as one, hiding a type change; set has no defined order)"
  | .rawBytes => "bytes have no single canonical JSON form; encode explicitly (e.g. hex)"
  | .notSerializable typeName => typeName ++ " is not canonically serializable"

/-- The path of the value that was refused, `<root>` where it is empty. -/
structure CanonicalizationError where
  path : PyStr
  why : Why
deriving DecidableEq

/-- `f"{path}.{key}" if path else key` -/
def memberPath (path key : PyStr) : PyStr := if path = [] then key else path ++ pyStr "." ++ key

/-- `f"{path}[{i}]"` -/
def itemPath (path : PyStr) (i : ℕ) : PyStr := path ++ pyStr ("[" ++ toString i ++ "]")

def reject (path : PyStr) (why : Why) : Except CanonicalizationError Json := .error ⟨path, why⟩

mutual

/-- `_validate`; the value comes back as one of JSON. -/
def validate (path : PyStr) : Value → Except CanonicalizationError Json
  | .null => .ok .null
  | .bool b => .ok (.bool b)
  | .int n => .ok (.int n)
  | .float x => if notFinite x then reject path (.nonFinite x) else .ok (.float x)
  | .str s => if Encodable s then .ok (.str s) else reject path .surrogates
  | .dict members =>
    match validateMembers path members with
    | .error e => .error e
    | .ok ms => .ok (.obj ms)
  | .list items =>
    match validateItems path 0 items with
    | .error e => .error e
    | .ok vs => .ok (.arr vs)
  | .tuple => reject path (.notAList "tuple")
  | .set => reject path (.notAList "set")
  | .frozenset => reject path (.notAList "frozenset")
  | .bytes => reject path .rawBytes
  | .bytearray => reject path .rawBytes
  | .other typeName => reject path (.notSerializable typeName)

def validateItems (path : PyStr) (i : ℕ) : List Value → Except CanonicalizationError (List Json)
  | [] => .ok []
  | v :: vs =>
    match validate (itemPath path i) v with
    | .error e => .error e
    | .ok j =>
      match validateItems path (i + 1) vs with
      | .error e => .error e
      | .ok js => .ok (j :: js)

def validateMembers (path : PyStr) : List (Key × Value) → Except CanonicalizationError (List (PyStr × Json))
  | [] => .ok []
  | (.other repr typeName, _) :: _ => .error ⟨path, .keyNotText repr typeName⟩
  | (.str k, v) :: ms =>
    match validate (memberPath path k) v with
    | .error e => .error e
    | .ok j =>
      match validateMembers path ms with
      | .error e => .error e
      | .ok js => .ok ((k, j) :: js)

end

/-! ## Writing -/

def rawChar (c : CodePoint) : Char := Char.ofNat c.val

/-- `ESCAPE`: what text outside ASCII keeps as it is. -/
def escapeRaw (c : CodePoint) : List Char :=
  if c.val = 34 then ['\\', '"']
  else if c.val = 92 then ['\\', '\\']
  else if c.val = 10 then ['\\', 'n']
  else if c.val = 13 then ['\\', 'r']
  else if c.val = 9 then ['\\', 't']
  else if c.val = 12 then ['\\', 'f']
  else if c.val = 8 then ['\\', 'b']
  else if c.val < 32 then unicodeEscape c.val
  else [rawChar c]

def rawStr (s : PyStr) : List Char := '"' :: s.flatMap escapeRaw ++ ['"']

mutual

def compact (floats : FloatText) : Json → List Char
  | .null => ['n', 'u', 'l', 'l']
  | .bool true => ['t', 'r', 'u', 'e']
  | .bool false => ['f', 'a', 'l', 's', 'e']
  | .int n => renderInt n
  | .float x => renderFloat floats x
  | .str s => rawStr s
  | .arr [] => ['[', ']']
  | .arr (v :: vs) => '[' :: compact floats v ++ compactItems floats vs
  | .obj [] => ['{', '}']
  | .obj ((k, v) :: ms) => '{' :: rawStr k ++ ':' :: compact floats v ++ compactMembers floats ms

def compactItems (floats : FloatText) : List Json → List Char
  | [] => [']']
  | v :: vs => ',' :: compact floats v ++ compactItems floats vs

def compactMembers (floats : FloatText) : List (PyStr × Json) → List Char
  | [] => ['}']
  | (k, v) :: ms => ',' :: rawStr k ++ ':' :: compact floats v ++ compactMembers floats ms

end

/-- `json.dumps(value, sort_keys=True, separators=(",", ":"), ensure_ascii=False)` -/
def canonicalText (floats : FloatText) (v : Json) : List Char := compact floats (sortKeys v)

mutual

def keysEncodable : Json → Bool
  | .arr vs => keysEncodableItems vs
  | .obj ms => keysEncodableMembers ms
  | _ => true

def keysEncodableItems : List Json → Bool
  | [] => true
  | v :: vs => keysEncodable v && keysEncodableItems vs

def keysEncodableMembers : List (PyStr × Json) → Bool
  | [] => true
  | (k, v) :: ms => decide (Encodable k) && keysEncodable v && keysEncodableMembers ms

end

inductive CanonicalFailure
  | canonicalizationError (e : CanonicalizationError)
  | unicodeEncodeError
deriving DecidableEq

/-- The text is encoded at last; by then only a key can hold a surrogate. -/
def canonicalJson (floats : FloatText) (value : Value) : Except CanonicalFailure ByteArray :=
  match validate [] value with
  | .error e => .error (.canonicalizationError e)
  | .ok v => if keysEncodable v then .ok (utf8 (canonicalText floats v)) else .error .unicodeEncodeError

/-- `json.loads(raw.decode("utf-8"))` -/
def loadBytes (floats : FloatText) (raw : ByteArray) : Option Json :=
  (decode raw).bind (loads floats)

/-! ## Identifiers -/

inductive IdError
  | canonical (e : CanonicalFailure)
  | invalidDomain (domain : PyStr)
  | notEncodable
deriving DecidableEq

def unitSeparator : Char := '\x1f'

/-- `_PREFIX`, `ID_SCHEME_VERSION` and their separators. -/
def idPrefix : List Char := "shapeflow".toList ++ unitSeparator :: "v2".toList ++ [unitSeparator]

/-- `_preimage` -/
def preimage (domain : PyStr) (payload : ByteArray) : Except IdError ByteArray :=
  if domain = [] ∨ codePoint 31 ∈ domain ∨ codePoint 0 ∈ domain then .error (.invalidDomain domain)
  else if Encodable domain then
    .ok (utf8 idPrefix ++ utf8 (domain.map rawChar) ++ utf8 [unitSeparator] ++ payload)
  else .error .notEncodable

def deriveId {δ : Type} (sha256Hex : ByteArray → δ) (floats : FloatText) (domain : PyStr) (fields : Value) :
    Except IdError δ :=
  match canonicalJson floats fields with
  | .error e => .error (.canonical e)
  | .ok payload => (preimage domain payload).map sha256Hex

/-! ## Admitted values -/

mutual

/-- A value of JSON that passed: text without surrogates, finite doubles, keys apart. -/
def Admitted (floats : FloatText) : Json → Prop
  | .float x => ∃ q, x = .finite q ∧ floats.IsDouble q
  | .str s => Encodable s
  | .arr vs => AdmittedItems floats vs
  | .obj ms => (ms.map Prod.fst).Nodup ∧ AdmittedMembers floats ms
  | _ => True

def AdmittedItems (floats : FloatText) : List Json → Prop
  | [] => True
  | v :: vs => Admitted floats v ∧ AdmittedItems floats vs

def AdmittedMembers (floats : FloatText) : List (PyStr × Json) → Prop
  | [] => True
  | (k, v) :: ms => Encodable k ∧ Admitted floats v ∧ AdmittedMembers floats ms

end

theorem admittedMembers_iff {floats : FloatText} {ms : List (PyStr × Json)} :
    AdmittedMembers floats ms ↔ ∀ e ∈ ms, Encodable e.1 ∧ Admitted floats e.2 := by
  induction ms with
  | nil => simp [AdmittedMembers]
  | cons e ms ih =>
    obtain ⟨k, v⟩ := e
    simp [AdmittedMembers, ih, and_assoc]

mutual

theorem admitted_sortKeys {floats : FloatText} : ∀ v : Json, Admitted floats v → Admitted floats (sortKeys v)
  | .null, h | .bool _, h | .int _, h | .float _, h | .str _, h => h
  | .arr vs, h => admittedItems_sort vs h
  | .obj ms, h => by
    refine ⟨?_, admittedMembers_iff.mpr fun e he => ?_⟩
    · refine (keys_sorted (sortMembers ms)).nodup_iff.mpr ?_
      rw [keys_sortMembers]
      exact h.1
    · exact admittedMembers_iff.mp (admittedMembers_sort ms h.2) e (mem_sorted.mp he)

theorem admittedItems_sort {floats : FloatText} : ∀ vs : List Json, AdmittedItems floats vs →
    AdmittedItems floats (sortItems vs)
  | [], h => h
  | v :: vs, h => ⟨admitted_sortKeys v h.1, admittedItems_sort vs h.2⟩

theorem admittedMembers_sort {floats : FloatText} : ∀ ms : List (PyStr × Json), AdmittedMembers floats ms →
    AdmittedMembers floats (sortMembers ms)
  | [], h => h
  | (_, v) :: ms, h => ⟨h.1, admitted_sortKeys v h.2.1, admittedMembers_sort ms h.2.2⟩

end

/-! ## Reading back -/

theorem rawChar_toNat {c : CodePoint} (h : ¬ (isHigh c ∨ isLow c)) : (rawChar c).toNat = c.val := by
  have hvalid : c.val.isValidChar := by
    have hlt := c.isLt
    simp only [isHigh, isLow, decide_eq_true_eq] at h
    unfold Nat.isValidChar
    omega
  unfold rawChar Char.ofNat
  rw [dif_pos hvalid]
  rfl

theorem scanUnits_raw {c : CodePoint} (hc : ¬ (isHigh c ∨ isLow c)) (r : List Char) :
    scanUnits (escapeRaw c ++ r) = (scanUnits r).map fun p => (c :: p.1, p.2) := by
  have hsimple : ∀ (e : Char), simpleEscape e = some c.val →
      scanUnits ('\\' :: e :: r) = (scanUnits r).map fun p => (c :: p.1, p.2) := by
    intro e he
    rw [scanUnits_simple he, codePoint_val]
  unfold escapeRaw
  split_ifs with h1 h2 h3 h4 h5 h6 h7 h8
  · exact hsimple '"' (by rw [h1]; rfl)
  · exact hsimple '\\' (by rw [h2]; rfl)
  · exact hsimple 'n' (by rw [h3]; rfl)
  · exact hsimple 'r' (by rw [h4]; rfl)
  · exact hsimple 't' (by rw [h5]; rfl)
  · exact hsimple 'f' (by rw [h6]; rfl)
  · exact hsimple 'b' (by rw [h7]; rfl)
  · rw [scanUnits_escape (by omega), codePoint_val]
  · have hval := rawChar_toNat hc
    have hq : rawChar c ≠ '"' := fun h => h1 (hval.symm.trans (congrArg Char.toNat h))
    have hb : rawChar c ≠ '\\' := fun h => h2 (hval.symm.trans (congrArg Char.toNat h))
    rw [List.singleton_append, scanUnits_plain (by omega) hq hb, hval, codePoint_val]

theorem scanUnits_rawText {s : PyStr} (hs : Encodable s) (r : List Char) :
    scanUnits (s.flatMap escapeRaw ++ '"' :: r) = some (s, r) := by
  induction s with
  | nil => rfl
  | cons c s ih =>
    obtain ⟨hc, hrest⟩ := List.forall_mem_cons.mp hs
    rw [List.flatMap_cons, List.append_assoc, scanUnits_raw hc, ih hrest]
    rfl

theorem joinPairs_encodable {s : PyStr} (hs : Encodable s) : joinPairs s = s := by
  induction s with
  | nil => rfl
  | cons c s ih =>
    obtain ⟨hc, hrest⟩ := List.forall_mem_cons.mp hs
    rw [joinPairs_cons (fun _ _ _ h => hc (.inl h.1)), ih hrest]

theorem parseString_raw {s : PyStr} (hs : Encodable s) (r : List Char) :
    parseString (s.flatMap escapeRaw ++ '"' :: r) = some (s, r) := by
  unfold parseString
  rw [scanUnits_rawText hs, Option.map_some, joinPairs_encodable hs]

theorem valueEnd_compactItems (floats : FloatText) (vs : List Json) (rest : List Char) :
    ValueEnd (compactItems floats vs ++ rest) := by
  cases vs <;> exact valueEnd_of (by decide) _

theorem valueEnd_compactMembers (floats : FloatText) (ms : List (PyStr × Json)) (rest : List Char) :
    ValueEnd (compactMembers floats ms ++ rest) := by
  rcases ms with _ | ⟨⟨k, v⟩, ms⟩
  · exact valueEnd_of (by decide) _
  · rw [compactMembers]
    exact valueEnd_of (by decide) _

theorem compact_start (floats : FloatText) (v : Json) (h : Admitted floats v) (rest : List Char) :
    ValueStart (compact floats v ++ rest) := by
  have hchar : ∀ (c : Char) (r : List Char), isSpace c = false ∧ c ≠ ']' ∧ c ≠ '}' → ValueStart (c :: r) :=
    fun c r hc => ⟨c, r, rfl, hc⟩
  cases v with
  | null => exact hchar _ _ (by decide)
  | bool b => cases b <;> exact hchar _ _ (by decide)
  | int n => exact render_start floats (.int n) trivial rest
  | float x =>
    obtain ⟨q, rfl, hq⟩ := h
    exact render_start floats (.float (.finite q)) hq rest
  | str s => exact hchar _ _ (by decide)
  | arr vs => cases vs <;> exact hchar _ _ (by decide)
  | obj ms =>
    rcases ms with _ | ⟨⟨k, v⟩, ms⟩
    · exact hchar _ _ (by decide)
    · rw [compact]
      exact hchar _ _ (by decide)

theorem compactItems_pos (floats : FloatText) (vs : List Json) : 0 < (compactItems floats vs).length := by
  cases vs <;> simp [compactItems]

theorem compactMembers_pos (floats : FloatText) (ms : List (PyStr × Json)) :
    0 < (compactMembers floats ms).length := by
  rcases ms with _ | ⟨⟨k, v⟩, ms⟩ <;> simp [compactMembers]

theorem parseItems_next {floats : FloatText} {cs r rest : List Char} {v : Json} {vs : List Json} {n : ℕ}
    (hv : parseValue floats n cs = some (v, ',' :: r)) (hstart : ValueStart r)
    (hvs : parseItems floats n r = some (vs, rest)) : parseItems floats (n + 1) cs = some (v :: vs, rest) := by
  unfold parseItems
  simp only [hv, skipSpace_of_not (show isSpace ',' = false by decide), hstart.skipSpace.1, hvs]
  rfl

theorem parseMembers_end {floats : FloatText} {cs body r : List Char} {k : PyStr} {v : Json} {n : ℕ}
    (hk : parseString cs = some (k, ':' :: body)) (hstart : ValueStart body)
    (hv : parseValue floats n body = some (v, '}' :: r)) :
    parseMembers floats (n + 1) ('"' :: cs) = some ([(k, v)], r) := by
  unfold parseMembers
  simp only [hk, skipSpace_of_not (show isSpace ':' = false by decide), hstart.skipSpace.1, hv,
    skipSpace_of_not (show isSpace '}' = false by decide)]

theorem parseMembers_next {floats : FloatText} {cs body r rest : List Char} {k : PyStr} {v : Json}
    {ms : List (PyStr × Json)} {n : ℕ} (hk : parseString cs = some (k, ':' :: body))
    (hstart : ValueStart body) (hv : parseValue floats n body = some (v, ',' :: '"' :: r))
    (hms : parseMembers floats n ('"' :: r) = some (ms, rest)) :
    parseMembers floats (n + 1) ('"' :: cs) = some ((k, v) :: ms, rest) := by
  unfold parseMembers
  simp only [hk, skipSpace_of_not (show isSpace ':' = false by decide), hstart.skipSpace.1, hv,
    skipSpace_of_not (show isSpace ',' = false by decide),
    skipSpace_of_not (show isSpace '"' = false by decide), hms]
  rfl

mutual

theorem parseValue_compact {floats : FloatText} : ∀ (v : Json) (n : ℕ) (rest : List Char), Admitted floats v →
    2 * (compact floats v).length ≤ n → ValueEnd rest →
    parseValue floats n (compact floats v ++ rest) = some (v, rest)
  | v, 0, rest, hv, hn, _ => by
    obtain ⟨c, r, hcons, -⟩ := compact_start floats v hv []
    rw [List.append_nil] at hcons
    rw [hcons] at hn
    simp at hn
  | .null, n + 1, rest, _, _, _ => rfl
  | .bool true, n + 1, rest, _, _, _ => rfl
  | .bool false, n + 1, rest, _, _, _ => rfl
  | .int k, n + 1, rest, _, _, hrest => by
    rw [compact]
    exact parseValue_int k hrest n
  | .float x, n + 1, rest, hv, _, hrest => by
    obtain ⟨q, rfl, hq⟩ := hv
    rw [compact, renderFloat]
    exact parseValue_float hq hrest n
  | .str s, n + 1, rest, hv, _, _ => by
    have htext := parseString_raw (s := s) hv rest
    simp only [compact, rawStr, List.cons_append, List.append_assoc, List.nil_append, parseValue, htext,
      Option.map_some]
  | .arr [], n + 1, rest, _, _, _ => rfl
  | .arr (v :: vs), n + 1, rest, hv, hn, _ => by
    simp only [compact, List.cons_append, List.length_cons, List.length_append] at hn
    rw [compact, List.cons_append, List.cons_append, List.append_assoc,
      parseValue_list (compact_start floats v hv.1 _), parseItems_compact v vs n rest hv.1 hv.2 (by omega)]
    rfl
  | .obj [], n + 1, rest, _, _, _ => rfl
  | .obj ((k, v) :: ms), n + 1, rest, hv, hn, _ => by
    simp only [compact, List.cons_append, List.append_assoc, List.length_cons, List.length_append] at hn
    obtain ⟨hdist, hk, hval, hms⟩ := hv
    have hmembers := parseMembers_compact k v ms n rest hk hval hms (by omega)
    simp only [compact, List.cons_append, List.append_assoc]
    simp only [rawStr, List.cons_append] at hmembers ⊢
    rw [parseValue_dict, hmembers, Option.map_some, mkObj_of_distinct hdist]

theorem parseItems_compact {floats : FloatText} : ∀ (v : Json) (vs : List Json) (n : ℕ) (rest : List Char),
    Admitted floats v → AdmittedItems floats vs →
    2 * ((compact floats v).length + (compactItems floats vs).length) ≤ n →
    parseItems floats n (compact floats v ++ (compactItems floats vs ++ rest)) = some (v :: vs, rest)
  | v, vs, 0, rest, _, _, hn => by
    have := compactItems_pos floats vs
    omega
  | v, [], n + 1, rest, hv, _, hn => by
    have hpos := compactItems_pos floats []
    exact parseItems_last (parseValue_compact v n _ hv (by omega) (valueEnd_compactItems floats [] rest))
  | v, w :: vs, n + 1, rest, hv, hvs, hn => by
    have hlen : (compactItems floats (w :: vs)).length =
        (compact floats w).length + (compactItems floats vs).length + 1 := by
      rw [compactItems]
      simp only [List.length_cons, List.length_append]
      omega
    rw [hlen] at hn
    have hval := parseValue_compact v n (compactItems floats (w :: vs) ++ rest) hv (by omega)
      (valueEnd_compactItems floats (w :: vs) rest)
    have hpos := compactItems_pos floats vs
    obtain ⟨c, r, hcons, -⟩ := compact_start floats v hv []
    rw [List.append_nil] at hcons
    have hone : 0 < (compact floats v).length := by
      rw [hcons]
      simp
    rw [compactItems, List.cons_append, List.cons_append, List.append_assoc] at hval ⊢
    exact parseItems_next hval (compact_start floats w hvs.1 _)
      (parseItems_compact w vs n rest hvs.1 hvs.2 (by omega))

theorem parseMembers_compact {floats : FloatText} : ∀ (k : PyStr) (v : Json) (ms : List (PyStr × Json)) (n : ℕ)
    (rest : List Char), Encodable k → Admitted floats v → AdmittedMembers floats ms →
    2 * ((compact floats v).length + (compactMembers floats ms).length) ≤ n →
    parseMembers floats n (rawStr k ++ ':' :: (compact floats v ++ (compactMembers floats ms ++ rest))) =
      some ((k, v) :: ms, rest)
  | k, v, ms, 0, rest, _, _, _, hn => by
    have := compactMembers_pos floats ms
    omega
  | k, v, [], n + 1, rest, hk, hv, _, hn => by
    have hpos := compactMembers_pos floats []
    have hval := parseValue_compact v n _ hv (by omega) (valueEnd_compactMembers floats [] rest)
    have hkey := parseString_raw hk (':' :: (compact floats v ++ (compactMembers floats [] ++ rest)))
    simp only [rawStr, List.cons_append, List.append_assoc, List.nil_append]
    exact parseMembers_end hkey (compact_start floats v hv _) hval
  | k, v, (k', w) :: ms, n + 1, rest, hk, hv, hms, hn => by
    have hlen : (compactMembers floats ((k', w) :: ms)).length =
        (rawStr k').length + (compact floats w).length + (compactMembers floats ms).length + 2 := by
      rw [compactMembers]
      simp only [List.cons_append, List.length_cons, List.length_append]
      omega
    rw [hlen] at hn
    have hval := parseValue_compact v n (compactMembers floats ((k', w) :: ms) ++ rest) hv (by omega)
      (valueEnd_compactMembers floats ((k', w) :: ms) rest)
    have hkey := parseString_raw hk
      (':' :: (compact floats v ++ (compactMembers floats ((k', w) :: ms) ++ rest)))
    have hrest := parseMembers_compact k' w ms n rest hms.1 hms.2.1 hms.2.2 (by omega)
    simp only [compactMembers, rawStr, List.cons_append, List.append_assoc, List.nil_append]
      at hval hkey hrest ⊢
    exact parseMembers_next hkey (compact_start floats v hv _) hval hrest

end

theorem loads_compact {floats : FloatText} {v : Json} (h : Admitted floats v) :
    loads floats (compact floats v) = some v := by
  have hstart := compact_start floats v h []
  rw [List.append_nil] at hstart
  have hval := parseValue_compact v (2 * (compact floats v).length + 2) [] h (by omega)
    fun c r hcons => by cases hcons
  rw [List.append_nil] at hval
  unfold loads
  rw [hstart.skipSpace.1, hval]
  rfl

theorem loads_canonicalText {floats : FloatText} {v : Json} (h : Admitted floats v) :
    loads floats (canonicalText floats v) = some (sortKeys v) :=
  loads_compact (admitted_sortKeys v h)

/-! ## The values that are written -/

mutual

/-- What a Python value always is: the keys of a dictionary differ, a finite float is a double. -/
def IsPython (floats : FloatText) : Value → Prop
  | .float (.finite q) => floats.IsDouble q
  | .list vs => IsPythonItems floats vs
  | .dict ms => (ms.map Prod.fst).Nodup ∧ IsPythonMembers floats ms
  | _ => True

def IsPythonItems (floats : FloatText) : List Value → Prop
  | [] => True
  | v :: vs => IsPython floats v ∧ IsPythonItems floats vs

def IsPythonMembers (floats : FloatText) : List (Key × Value) → Prop
  | [] => True
  | (_, v) :: ms => IsPython floats v ∧ IsPythonMembers floats ms

end

mutual

def ofJson : Json → Value
  | .null => .null
  | .bool b => .bool b
  | .int n => .int n
  | .float x => .float x
  | .str s => .str s
  | .arr vs => .list (ofItems vs)
  | .obj ms => .dict (ofMembers ms)

def ofItems : List Json → List Value
  | [] => []
  | v :: vs => ofJson v :: ofItems vs

def ofMembers : List (PyStr × Json) → List (Key × Value)
  | [] => []
  | (k, v) :: ms => (.str k, ofJson v) :: ofMembers ms

end

theorem keys_ofMembers (ms : List (PyStr × Json)) :
    (ofMembers ms).map Prod.fst = (ms.map Prod.fst).map Key.str := by
  induction ms with
  | nil => rfl
  | cons e ms ih =>
    obtain ⟨k, v⟩ := e
    rw [ofMembers, List.map_cons, ih]
    rfl

mutual

/-- What passes is the value of JSON that comes back. -/
theorem validate_ok {floats : FloatText} : ∀ (v : Value) (path : PyStr) (j : Json), validate path v = .ok j →
    IsPython floats v → keysEncodable j = true → v = ofJson j ∧ Admitted floats j
  | .null, path, j, h, _, _ => by
    cases h
    exact ⟨rfl, trivial⟩
  | .bool b, path, j, h, _, _ => by
    cases h
    exact ⟨rfl, trivial⟩
  | .int n, path, j, h, _, _ => by
    cases h
    exact ⟨rfl, trivial⟩
  | .float x, path, j, h, hp, _ => by
    simp only [validate] at h
    split at h
    · cases h
    · rename_i hfinite
      cases h
      cases x with
      | finite q => exact ⟨rfl, q, rfl, hp⟩
      | infinity => exact absurd (.inr (.inl rfl)) hfinite
      | negInfinity => exact absurd (.inr (.inr rfl)) hfinite
      | nan => exact absurd (.inl rfl) hfinite
  | .str s, path, j, h, _, _ => by
    simp only [validate] at h
    split at h
    · rename_i hs
      cases h
      exact ⟨rfl, hs⟩
    · cases h
  | .dict ms, path, j, h, hp, hk => by
    simp only [validate] at h
    split at h
    · cases h
    · rename_i js hjs
      cases h
      obtain ⟨rfl, hadmitted⟩ := validateMembers_ok ms path js hjs hp.2 hk
      have hkeys := hp.1
      rw [keys_ofMembers] at hkeys
      exact ⟨rfl, hkeys.of_map _, hadmitted⟩
  | .list vs, path, j, h, hp, hk => by
    simp only [validate] at h
    split at h
    · cases h
    · rename_i js hjs
      cases h
      obtain ⟨rfl, hadmitted⟩ := validateItems_ok vs path 0 js hjs hp hk
      exact ⟨rfl, hadmitted⟩
  | .tuple, _, _, h, _, _ | .set, _, _, h, _, _ | .frozenset, _, _, h, _, _ | .bytes, _, _, h, _, _
  | .bytearray, _, _, h, _, _ | .other _, _, _, h, _, _ => by cases h

theorem validateItems_ok {floats : FloatText} : ∀ (vs : List Value) (path : PyStr) (i : ℕ) (js : List Json),
    validateItems path i vs = .ok js → IsPythonItems floats vs → keysEncodableItems js = true →
    vs = ofItems js ∧ AdmittedItems floats js
  | [], path, i, js, h, _, _ => by
    cases h
    exact ⟨rfl, trivial⟩
  | v :: vs, path, i, js, h, hp, hk => by
    simp only [validateItems] at h
    split at h
    · cases h
    · rename_i j hj
      split at h
      · cases h
      · rename_i rest hrest
        cases h
        simp only [keysEncodableItems, Bool.and_eq_true] at hk
        obtain ⟨rfl, hv⟩ := validate_ok v _ j hj hp.1 hk.1
        obtain ⟨rfl, hvs⟩ := validateItems_ok vs path (i + 1) rest hrest hp.2 hk.2
        exact ⟨rfl, hv, hvs⟩

theorem validateMembers_ok {floats : FloatText} : ∀ (ms : List (Key × Value)) (path : PyStr)
    (js : List (PyStr × Json)), validateMembers path ms = .ok js → IsPythonMembers floats ms →
    keysEncodableMembers js = true → ms = ofMembers js ∧ AdmittedMembers floats js
  | [], path, js, h, _, _ => by
    cases h
    exact ⟨rfl, trivial⟩
  | (.other _ _, _) :: _, _, _, h, _, _ => by cases h
  | (.str k, v) :: ms, path, js, h, hp, hk => by
    simp only [validateMembers] at h
    split at h
    · cases h
    · rename_i j hj
      split at h
      · cases h
      · rename_i rest hrest
        cases h
        simp only [keysEncodableMembers, Bool.and_eq_true, decide_eq_true_eq] at hk
        obtain ⟨rfl, hv⟩ := validate_ok v _ j hj hp.1 hk.1.2
        obtain ⟨rfl, hms⟩ := validateMembers_ok ms path rest hrest hp.2 hk.2
        exact ⟨rfl, hk.1.1, hv, hms⟩

end

/-- What `canonical_json` returned is the text of a value of JSON, and loads back as it. -/
theorem canonicalJson_ok {floats : FloatText} {v : Value} {raw : ByteArray} (hv : IsPython floats v)
    (h : canonicalJson floats v = .ok raw) :
    ∃ j, v = ofJson j ∧ Admitted floats j ∧ raw = utf8 (canonicalText floats j) ∧
      loadBytes floats raw = some (sortKeys j) := by
  unfold canonicalJson at h
  split at h
  · cases h
  · rename_i j hj
    split at h
    · rename_i hk
      obtain ⟨hof, hadmitted⟩ := validate_ok v [] j hj hv hk
      refine ⟨j, hof, hadmitted, (Except.ok.inj h).symm, ?_⟩
      unfold loadBytes
      rw [← Except.ok.inj h, decode_utf8]
      exact loads_canonicalText hadmitted
    · cases h

theorem canonicalJson_same {floats : FloatText} {v w : Value} {raw : ByteArray} (hv : IsPython floats v)
    (hw : IsPython floats w) (h : canonicalJson floats v = .ok raw) (h' : canonicalJson floats w = .ok raw) :
    ∃ j k, v = ofJson j ∧ w = ofJson k ∧ SameValue j k := by
  obtain ⟨j, hj, -, -, hload⟩ := canonicalJson_ok hv h
  obtain ⟨k, hk, -, -, hload'⟩ := canonicalJson_ok hw h'
  exact ⟨j, k, hj, hk, Option.some.inj (hload.symm.trans hload')⟩

/-! ## The framing of an identifier -/

theorem map_rawChar_injective {s t : PyStr} (hs : Encodable s) (ht : Encodable t)
    (h : s.map rawChar = t.map rawChar) : s = t := by
  induction s generalizing t with
  | nil => exact (List.map_eq_nil_iff.mp h.symm).symm
  | cons c s ih =>
    cases t with
    | nil => cases h
    | cons d t =>
      obtain ⟨hc, hs⟩ := List.forall_mem_cons.mp hs
      obtain ⟨hd, ht⟩ := List.forall_mem_cons.mp ht
      obtain ⟨hhead, htail⟩ := List.cons.inj h
      have hval : c.val = d.val := by
        rw [← rawChar_toNat hc, ← rawChar_toNat hd, hhead]
      rw [Fin.ext hval, ih hs ht htail]

theorem separator_notMem {domain : PyStr} (henc : Encodable domain) (h : codePoint 31 ∉ domain) :
    unitSeparator ∉ domain.map rawChar := by
  intro hmem
  obtain ⟨c, hc, heq⟩ := List.mem_map.mp hmem
  have hval := rawChar_toNat (henc c hc)
  rw [heq] at hval
  have hcode : c = codePoint 31 := Fin.ext hval.symm
  exact h (hcode ▸ hc)

/-- The first separator of a text is where it is. -/
theorem append_cons_inj {α : Type} {a : α} {xs ys zs ws : List α} (hx : a ∉ xs) (hy : a ∉ ys)
    (h : xs ++ a :: zs = ys ++ a :: ws) : xs = ys ∧ zs = ws := by
  induction xs generalizing ys with
  | nil =>
    cases ys with
    | nil => exact ⟨rfl, (List.cons.inj h).2⟩
    | cons y ys => exact absurd (List.cons.inj h).1 (List.ne_of_not_mem_cons hy)
  | cons x xs ih =>
    cases ys with
    | nil => exact absurd (List.cons.inj h).1.symm (List.ne_of_not_mem_cons hx)
    | cons y ys =>
      obtain ⟨hhead, htail⟩ := List.cons.inj h
      obtain ⟨hrest, hws⟩ := ih (List.not_mem_of_not_mem_cons hx) (List.not_mem_of_not_mem_cons hy) htail
      exact ⟨by rw [hhead, hrest], hws⟩

/-- Neither the domain nor the payload can move the separator between them. -/
theorem preimage_injective {domain domain' : PyStr} {text text' : List Char} {raw : ByteArray}
    (h : preimage domain (utf8 text) = .ok raw) (h' : preimage domain' (utf8 text') = .ok raw) :
    domain = domain' ∧ text = text' := by
  have hframe : ∀ d t, preimage d (utf8 t) = .ok raw →
      Encodable d ∧ unitSeparator ∉ d.map rawChar ∧
        raw = utf8 (idPrefix ++ d.map rawChar ++ [unitSeparator] ++ t) := by
    intro d t hd
    unfold preimage at hd
    split at hd
    · cases hd
    · rename_i hvalid
      split at hd
      · rename_i henc
        simp only [not_or] at hvalid
        refine ⟨henc, separator_notMem henc hvalid.2.1, ?_⟩
        rw [← Except.ok.inj hd]
        simp only [utf8_append]
      · cases hd
  obtain ⟨henc, hsep, hraw⟩ := hframe domain text h
  obtain ⟨henc', hsep', hraw'⟩ := hframe domain' text' h'
  have htext := utf8_injective (hraw.symm.trans hraw')
  simp only [List.append_assoc, List.singleton_append] at htext
  obtain ⟨hdomain, hpayload⟩ := append_cons_inj hsep hsep' (List.append_cancel_left htext)
  exact ⟨map_rawChar_injective henc henc' hdomain, hpayload⟩

theorem deriveId_ok {δ : Type} {sha256Hex : ByteArray → δ} {floats : FloatText} {domain : PyStr} {v : Value}
    {id : δ} (h : deriveId sha256Hex floats domain v = .ok id) :
    ∃ payload raw, canonicalJson floats v = .ok payload ∧ preimage domain payload = .ok raw ∧
      id = sha256Hex raw := by
  unfold deriveId at h
  split at h
  · cases h
  · rename_i payload hpayload
    cases hraw : preimage domain payload with
    | error e =>
      rw [hraw] at h
      cases h
    | ok raw =>
      rw [hraw] at h
      exact ⟨payload, raw, hpayload, hraw, (Except.ok.inj h).symm⟩

/-- Canonical text determines its value up to the order of keys and is read back as it; identifiers
    of different domains or of different values differ, where the hash keeps texts apart. -/
theorem canonical_injective {δ : Type} (sha256Hex : ByteArray → δ) (floats : FloatText) {v w : Value}
    (hv : IsPython floats v) (hw : IsPython floats w) :
    (∀ raw, canonicalJson floats v = .ok raw → canonicalJson floats w = .ok raw →
      ∃ j k, v = ofJson j ∧ w = ofJson k ∧ SameValue j k) ∧
    (∀ raw, canonicalJson floats v = .ok raw →
      ∃ j k, v = ofJson j ∧ loadBytes floats raw = some k ∧ SameValue k j) ∧
    (Function.Injective sha256Hex → ∀ domain domain' id, deriveId sha256Hex floats domain v = .ok id →
      deriveId sha256Hex floats domain' w = .ok id →
      domain = domain' ∧ ∃ j k, v = ofJson j ∧ w = ofJson k ∧ SameValue j k) := by
  refine ⟨fun raw h h' => canonicalJson_same hv hw h h', ?_, ?_⟩
  · intro raw h
    obtain ⟨j, hj, -, -, hload⟩ := canonicalJson_ok hv h
    exact ⟨j, sortKeys j, hj, hload, sameValue_sortKeys j⟩
  · intro hsha domain domain' id h h'
    obtain ⟨payload, raw, hpayload, hraw, hid⟩ := deriveId_ok h
    obtain ⟨payload', raw', hpayload', hraw', hid'⟩ := deriveId_ok h'
    have heq : raw = raw' := hsha (hid.symm.trans hid')
    obtain ⟨j, -, -, htext, -⟩ := canonicalJson_ok hv hpayload
    obtain ⟨k, -, -, htext', -⟩ := canonicalJson_ok hw hpayload'
    rw [htext] at hraw
    rw [htext', ← heq] at hraw'
    obtain ⟨hdomain, hsame⟩ := preimage_injective hraw hraw'
    rw [htext] at hpayload
    rw [htext', ← hsame] at hpayload'
    exact ⟨hdomain, canonicalJson_same hv hw hpayload hpayload'⟩

/-- A document with nested values, as its keys were set. -/
def sampleDocument : Value :=
  .dict [(.str (pyStr "b"), .list [.int (-3), .null, .str (pyStr "é\n")]), (.str (pyStr "a"), .bool true)]

theorem canonical_injective_document :
    ∃ j k, sampleDocument = ofJson j ∧
      loadBytes .empty (utf8 "\x7b\"a\":true,\"b\":[-3,null,\"é\\n\"]\x7d".toList) = some k ∧ SameValue k j :=
  (canonical_injective (v := sampleDocument) (w := .null) (fun raw => raw) .empty
    (by simp [sampleDocument, IsPython, IsPythonMembers, IsPythonItems, pyStr, codePoint]) trivial).2.1 _
      (by decide +kernel)

end Shapeflow.Canonical
