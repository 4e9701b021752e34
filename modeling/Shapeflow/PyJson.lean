import Mathlib.Data.List.Sort
import Shapeflow.Dict
import Shapeflow.PyValue

set_option autoImplicit false

/-!
# JSON text of Python values

`dumps` writes a value in ASCII, its keys sorted; `loads` reads any text the
standard decoder accepts. Loading what was dumped gives the value back up to
the order of its keys.
-/
namespace Shapeflow.Py

/-! ## Writing -/

def hexDigit (n : ℕ) : Char := if n < 10 then Char.ofNat (n + 48) else Char.ofNat (n + 87)

def unicodeEscape (n : ℕ) : List Char :=
  ['\\', 'u', hexDigit (n / 4096), hexDigit (n / 256 % 16), hexDigit (n / 16 % 16), hexDigit (n % 16)]

def highOf (n : ℕ) : ℕ := 0xD800 + (n - 0x10000) / 1024

def lowOf (n : ℕ) : ℕ := 0xDC00 + (n - 0x10000) % 1024

/-- `ESCAPE_ASCII` -/
def escapeChar (c : CodePoint) : List Char :=
  if c.val = 34 then ['\\', '"']
  else if c.val = 92 then ['\\', '\\']
  else if c.val = 10 then ['\\', 'n']
  else if c.val = 13 then ['\\', 'r']
  else if c.val = 9 then ['\\', 't']
  else if c.val = 12 then ['\\', 'f']
  else if c.val = 8 then ['\\', 'b']
  else if 32 ≤ c.val ∧ c.val ≤ 126 then [Char.ofNat c.val]
  else if c.val < 0x10000 then unicodeEscape c.val
  else unicodeEscape (highOf c.val) ++ unicodeEscape (lowOf c.val)

def renderStr (s : PyStr) : List Char := '"' :: s.flatMap escapeChar ++ ['"']

def renderInt (n : ℤ) : List Char :=
  if n < 0 then '-' :: Nat.toDigits 10 n.natAbs else Nat.toDigits 10 n.natAbs

def AllDigits (ds : List Char) : Prop := ds ≠ [] ∧ ∀ d ∈ ds, d.isDigit = true

def WholePart (l : List Char) : Prop := l = ['0'] ∨ AllDigits l ∧ l.head? ≠ some '0'

def FractionPart (l : List Char) : Prop := l = [] ∨ ∃ ds, AllDigits ds ∧ l = '.' :: ds

def ExponentPart (l : List Char) : Prop :=
  l = [] ∨ ∃ e sign ds, (e = 'e' ∨ e = 'E') ∧ sign ∈ [[], ['+'], ['-']] ∧ AllDigits ds ∧ l = e :: (sign ++ ds)

def signText (negative : Bool) : List Char := if negative then ['-'] else []

/-- A number with a fraction or an exponent. -/
def FloatLiteral (l : List Char) : Prop :=
  ∃ negative whole fraction exponent, WholePart whole ∧ FractionPart fraction ∧ ExponentPart exponent ∧
    ¬ (fraction = [] ∧ exponent = []) ∧ l = signText negative ++ whole ++ fraction ++ exponent

/-- How finite floats are written and number literals are read: `float(repr(x)) == x`. -/
structure FloatText where
  IsDouble : ℚ → Prop
  text : ℚ → List Char
  value : List Char → PyFloat
  literal : ∀ q, IsDouble q → FloatLiteral (text q)
  value_text : ∀ q, IsDouble q → value (text q) = .finite q
  value_double : ∀ l q, value l = .finite q → IsDouble q

theorem no_double {P : ℚ → Prop} : ∀ q, (fun _ : ℚ => False) q → P q := fun _ h => h.elim

theorem nan_not_finite {P : ℚ → Prop} : ∀ (l : List Char) (q : ℚ), (fun _ => PyFloat.nan) l = .finite q → P q :=
  fun _ _ h => nomatch h

/-- No finite float at all, for runs on values without floats. -/
def FloatText.empty : FloatText where
  IsDouble := fun _ => False
  text := fun _ => []
  value := fun _ => .nan
  literal := no_double
  value_text := no_double
  value_double := nan_not_finite

def renderFloat (floats : FloatText) : PyFloat → List Char
  | .finite q => floats.text q
  | .infinity => ['I', 'n', 'f', 'i', 'n', 'i', 't', 'y']
  | .negInfinity => ['-', 'I', 'n', 'f', 'i', 'n', 'i', 't', 'y']
  | .nan => ['N', 'a', 'N']

mutual

def render (floats : FloatText) : Json → List Char
  | .null => ['n', 'u', 'l', 'l']
  | .bool true => ['t', 'r', 'u', 'e']
  | .bool false => ['f', 'a', 'l', 's', 'e']
  | .int n => renderInt n
  | .float x => renderFloat floats x
  | .str s => renderStr s
  | .arr [] => ['[', ']']
  | .arr (v :: vs) => '[' :: render floats v ++ renderItems floats vs
  | .obj [] => ['{', '}']
  | .obj ((k, v) :: ms) => '{' :: renderStr k ++ ':' :: ' ' :: render floats v ++ renderMembers floats ms

def renderItems (floats : FloatText) : List Json → List Char
  | [] => [']']
  | v :: vs => ',' :: ' ' :: render floats v ++ renderItems floats vs

def renderMembers (floats : FloatText) : List (PyStr × Json) → List Char
  | [] => ['}']
  | (k, v) :: ms =>
    ',' :: ' ' :: renderStr k ++ ':' :: ' ' :: render floats v ++ renderMembers floats ms

end

/-- Code points in order, the shorter text first. -/
def keyLe : PyStr → PyStr → Bool
  | [], _ => true
  | _ :: _, [] => false
  | a :: s, b :: t => a < b || (a = b && keyLe s t)

mutual

/-- The value with the keys of every dictionary in it in order. -/
def sortKeys : Json → Json
  | .arr vs => .arr (sortItems vs)
  | .obj ms => .obj ((sortMembers ms).insertionSort fun a b => keyLe a.1 b.1)
  | v => v

def sortItems : List Json → List Json
  | [] => []
  | v :: vs => sortKeys v :: sortItems vs

def sortMembers : List (PyStr × Json) → List (PyStr × Json)
  | [] => []
  | (k, v) :: ms => (k, sortKeys v) :: sortMembers ms

end

/-- `json.dumps(v, sort_keys=True)` -/
def dumps (floats : FloatText) (v : Json) : List Char := render floats (sortKeys v)

/-! ## Reading -/

def hexVal (c : Char) : Option ℕ :=
  if '0' ≤ c ∧ c ≤ '9' then some (c.toNat - 48)
  else if 'a' ≤ c ∧ c ≤ 'f' then some (c.toNat - 87)
  else if 'A' ≤ c ∧ c ≤ 'F' then some (c.toNat - 55)
  else none

def hexVal4 (a b c d : Char) : Option ℕ := do
  let a ← hexVal a
  let b ← hexVal b
  let c ← hexVal c
  let d ← hexVal d
  pure (4096 * a + 256 * b + 16 * c + d)

def simpleEscape : Char → Option ℕ
  | '"' => some 34
  | '\\' => some 92
  | '/' => some 47
  | 'b' => some 8
  | 'f' => some 12
  | 'n' => some 10
  | 'r' => some 13
  | 't' => some 9
  | _ => none

/-- The body of a string up to its closing quote, each `\uXXXX` on its own. -/
def scanUnits : List Char → Option (PyStr × List Char)
  | [] => none
  | '"' :: r => some ([], r)
  | '\\' :: 'u' :: a :: b :: c :: d :: r => do
    let n ← hexVal4 a b c d
    let (units, rest) ← scanUnits r
    pure (codePoint n :: units, rest)
  | '\\' :: e :: r => do
    let n ← simpleEscape e
    let (units, rest) ← scanUnits r
    pure (codePoint n :: units, rest)
  | c :: r =>
    if c.toNat < 32 then none
    else do
      let (units, rest) ← scanUnits r
      pure (codePoint c.toNat :: units, rest)

/-- A high surrogate and the low one after it are one code point. -/
def joinPairs : PyStr → PyStr
  | hi :: lo :: r =>
    if isHigh hi ∧ isLow lo then
      codePoint (0x10000 + (hi.val - 0xD800) * 1024 + (lo.val - 0xDC00)) :: joinPairs r
    else hi :: joinPairs (lo :: r)
  | s => s

/-- A string after its opening quote. -/
def parseString (cs : List Char) : Option (PyStr × List Char) :=
  (scanUnits cs).map fun p => (joinPairs p.1, p.2)

def isSpace (c : Char) : Bool := c = ' ' ∨ c = '\t' ∨ c = '\n' ∨ c = '\r'

def skipSpace (cs : List Char) : List Char := cs.dropWhile isSpace

/-- Digits, one at least. -/
def someDigits (cs : List Char) : Option (List Char × List Char) :=
  match cs.span Char.isDigit with
  | ([], _) => none
  | p => some p

def scanWhole : List Char → Option (List Char × List Char)
  | '0' :: r => some (['0'], r)
  | cs => someDigits cs

def scanFraction : List Char → List Char × List Char
  | '.' :: r =>
    match someDigits r with
    | some (ds, rest) => ('.' :: ds, rest)
    | none => ([], '.' :: r)
  | cs => ([], cs)

def scanExponent : List Char → List Char × List Char
  | e :: r =>
    if e = 'e' ∨ e = 'E' then
      match r with
      | s :: r' =>
        if s = '+' ∨ s = '-' then
          match someDigits r' with
          | some (ds, rest) => (e :: s :: ds, rest)
          | none => ([], e :: r)
        else
          match someDigits r with
          | some (ds, rest) => (e :: ds, rest)
          | none => ([], e :: r)
      | [] => ([], e :: r)
    else ([], e :: r)
  | [] => ([], [])

def intValue (negative : Bool) (digits : List Char) : ℤ :=
  if negative then -(Nat.ofDigitChars 10 digits 0 : ℤ) else Nat.ofDigitChars 10 digits 0

/-- The rest of a number whose sign has been read. -/
def parseUnsigned (floats : FloatText) (negative : Bool) (cs : List Char) : Option (Json × List Char) :=
  match scanWhole cs with
  | none => none
  | some (whole, r) =>
    let (fraction, r) := scanFraction r
    let (exponent, r) := scanExponent r
    if fraction = [] ∧ exponent = [] then some (.int (intValue negative whole), r)
    else some (.float (floats.value (signText negative ++ whole ++ fraction ++ exponent)), r)

def parseNumber (floats : FloatText) : List Char → Option (Json × List Char)
  | '-' :: cs => parseUnsigned floats true cs
  | cs => parseUnsigned floats false cs

/-- The dictionary of the members read, a repeated key keeping its first place and last value. -/
def mkObj (ms : List (PyStr × Json)) : Json := .obj (Dict.ofPairs ms).entries

mutual

def parseValue (floats : FloatText) : ℕ → List Char → Option (Json × List Char)
  | 0, _ => none
  | n + 1, cs =>
    match cs with
    | '"' :: r => (parseString r).map fun p => (.str p.1, p.2)
    | '[' :: r =>
      match skipSpace r with
      | ']' :: r' => some (.arr [], r')
      | r' => (parseItems floats n r').map fun p => (.arr p.1, p.2)
    | '{' :: r =>
      match skipSpace r with
      | '}' :: r' => some (.obj [], r')
      | r' => (parseMembers floats n r').map fun p => (mkObj p.1, p.2)
    | 'n' :: 'u' :: 'l' :: 'l' :: r => some (.null, r)
    | 't' :: 'r' :: 'u' :: 'e' :: r => some (.bool true, r)
    | 'f' :: 'a' :: 'l' :: 's' :: 'e' :: r => some (.bool false, r)
    | 'N' :: 'a' :: 'N' :: r => some (.float .nan, r)
    | 'I' :: 'n' :: 'f' :: 'i' :: 'n' :: 'i' :: 't' :: 'y' :: r => some (.float .infinity, r)
    | '-' :: 'I' :: 'n' :: 'f' :: 'i' :: 'n' :: 'i' :: 't' :: 'y' :: r => some (.float .negInfinity, r)
    | cs => parseNumber floats cs

/-- The items of a list that is not empty, through its closing bracket. -/
def parseItems (floats : FloatText) : ℕ → List Char → Option (List Json × List Char)
  | 0, _ => none
  | n + 1, cs =>
    match parseValue floats n cs with
    | none => none
    | some (v, r) =>
      match skipSpace r with
      | ',' :: r => (parseItems floats n (skipSpace r)).map fun p => (v :: p.1, p.2)
      | ']' :: r => some ([v], r)
      | _ => none

/-- The members of a dictionary that is not empty, through its closing brace. -/
def parseMembers (floats : FloatText) : ℕ → List Char → Option (List (PyStr × Json) × List Char)
  | 0, _ => none
  | n + 1, cs =>
    match cs with
    | '"' :: r =>
      match parseString r with
      | none => none
      | some (k, r) =>
        match skipSpace r with
        | ':' :: r =>
          match parseValue floats n (skipSpace r) with
          | none => none
          | some (v, r) =>
            match skipSpace r with
            | ',' :: r => (parseMembers floats n (skipSpace r)).map fun p => ((k, v) :: p.1, p.2)
            | '}' :: r => some ([(k, v)], r)
            | _ => none
        | _ => none
    | _ => none

end

/-- `json.loads(text)`; `none` where it raises. -/
def loads (floats : FloatText) (text : List Char) : Option Json :=
  match parseValue floats (2 * text.length + 2) (skipSpace text) with
  | none => none
  | some (v, rest) => if skipSpace rest = [] then some v else none

/-! ## Reading back strings -/

theorem hexVal_hexDigit : ∀ n < 16, hexVal (hexDigit n) = some n := by decide

theorem hexVal4_unicode {n : ℕ} (h : n < 0x10000) :
    hexVal4 (hexDigit (n / 4096)) (hexDigit (n / 256 % 16)) (hexDigit (n / 16 % 16)) (hexDigit (n % 16)) =
      some n := by
  unfold hexVal4
  rw [hexVal_hexDigit _ (by omega), hexVal_hexDigit _ (by omega), hexVal_hexDigit _ (by omega),
    hexVal_hexDigit _ (by omega)]
  simp only [Option.pure_def, Option.bind_eq_bind, Option.bind_some, Option.some.injEq]
  omega

theorem scanUnits_escape {n : ℕ} (h : n < 0x10000) (r : List Char) :
    scanUnits (unicodeEscape n ++ r) = (scanUnits r).map fun p => (codePoint n :: p.1, p.2) := by
  simp only [unicodeEscape, List.cons_append, List.nil_append]
  rw [scanUnits, hexVal4_unicode h]
  cases scanUnits r <;> rfl

/-- The units a code point is escaped as. -/
def unitsOf (c : CodePoint) : PyStr :=
  if c.val < 0x10000 then [c] else [codePoint (highOf c.val), codePoint (lowOf c.val)]

theorem codePoint_val (c : CodePoint) : codePoint c.val = c := by
  apply Fin.ext
  simp only [codePoint, Fin.ofNat]
  omega

theorem codePoint_of_lt {n : ℕ} (h : n < 0x110000) : (codePoint n).val = n := by
  simp only [codePoint, Fin.ofNat]
  omega

theorem scanUnits_simple {e : Char} {n : ℕ} (he : simpleEscape e = some n) (r : List Char) :
    scanUnits ('\\' :: e :: r) = (scanUnits r).map fun p => (codePoint n :: p.1, p.2) := by
  have hu : e ≠ 'u' := by
    rintro rfl
    cases he
  rw [scanUnits.eq_def]
  split
  · simp_all
  · simp_all
  · simp_all
  · rename_i e' r' _ hcons
    simp only [List.cons.injEq, true_and] at hcons
    obtain ⟨rfl, rfl⟩ := hcons
    rw [he]
    cases scanUnits r <;> rfl
  · rename_i c' r' _ hnot hcons
    simp only [List.cons.injEq] at hcons
    exact absurd hcons.2.symm (hnot e r hcons.1.symm)

theorem scanUnits_plain {ch : Char} (h32 : 32 ≤ ch.toNat) (hq : ch ≠ '"') (hb : ch ≠ '\\') (r : List Char) :
    scanUnits (ch :: r) = (scanUnits r).map fun p => (codePoint ch.toNat :: p.1, p.2) := by
  rw [scanUnits.eq_def]
  split
  · simp_all
  · simp_all
  · simp_all
  · simp_all
  · rename_i c' r' _ _ hcons
    simp only [List.cons.injEq] at hcons
    obtain ⟨rfl, rfl⟩ := hcons
    rw [if_neg (by omega)]
    cases scanUnits r <;> rfl

theorem printable_char : ∀ n < 127, 32 ≤ n → (Char.ofNat n).toNat = n := by decide

theorem scanUnits_char (c : CodePoint) (r : List Char) :
    scanUnits (escapeChar c ++ r) = (scanUnits r).map fun p => (unitsOf c ++ p.1, p.2) := by
  have hone : c.val < 0x10000 → unitsOf c = [codePoint c.val] := by
    intro h
    rw [codePoint_val]
    exact if_pos h
  have hsimple : ∀ (e : Char), simpleEscape e = some c.val → c.val < 0x10000 →
      scanUnits ('\\' :: e :: r) = (scanUnits r).map fun p => (unitsOf c ++ p.1, p.2) := by
    intro e he hc
    rw [hone hc, scanUnits_simple he]
    rfl
  unfold escapeChar
  split_ifs with h1 h2 h3 h4 h5 h6 h7 h8 h9
  · exact hsimple '"' (by rw [h1]; rfl) (by omega)
  · exact hsimple '\\' (by rw [h2]; rfl) (by omega)
  · exact hsimple 'n' (by rw [h3]; rfl) (by omega)
  · exact hsimple 'r' (by rw [h4]; rfl) (by omega)
  · exact hsimple 't' (by rw [h5]; rfl) (by omega)
  · exact hsimple 'f' (by rw [h6]; rfl) (by omega)
  · exact hsimple 'b' (by rw [h7]; rfl) (by omega)
  · have hval := printable_char c.val (by omega) h8.1
    have hq : Char.ofNat c.val ≠ '"' := fun h => h1 (hval.symm.trans (congrArg Char.toNat h))
    have hb : Char.ofNat c.val ≠ '\\' := fun h => h2 (hval.symm.trans (congrArg Char.toNat h))
    rw [List.singleton_append, scanUnits_plain (by omega) hq hb, hval, hone (by omega)]
    rfl
  · rw [hone h9, scanUnits_escape h9]
    rfl
  · have hunits : unitsOf c = [codePoint (highOf c.val), codePoint (lowOf c.val)] := if_neg h9
    have hc := c.isLt
    have hhigh : highOf c.val < 0x10000 := by
      unfold highOf
      omega
    have hlow : lowOf c.val < 0x10000 := by
      unfold lowOf
      omega
    rw [hunits, List.append_assoc, scanUnits_escape hhigh, scanUnits_escape hlow, Option.map_map]
    rfl

theorem scanUnits_text (s : PyStr) (r : List Char) :
    scanUnits (s.flatMap escapeChar ++ '"' :: r) = some (s.flatMap unitsOf, r) := by
  induction s with
  | nil => rfl
  | cons c s ih =>
    rw [List.flatMap_cons, List.append_assoc, scanUnits_char, ih]
    rfl

/-- Text as `loads` returns it: a high surrogate is never followed by a low one. -/
def Joined : PyStr → Prop
  | hi :: lo :: r => ¬ (isHigh hi ∧ isLow lo) ∧ Joined (lo :: r)
  | _ => True

theorem unitsOf_cons (c : CodePoint) : ∃ u us, unitsOf c = u :: us ∧ (isLow u → isLow c) := by
  unfold unitsOf
  split
  · exact ⟨c, [], rfl, id⟩
  · refine ⟨_, _, rfl, fun h => ?_⟩
    have hc := c.isLt
    simp only [isLow, decide_eq_true_eq] at h
    rw [codePoint_of_lt (by unfold highOf; omega)] at h
    unfold highOf at h
    omega

theorem joinPairs_cons {u : CodePoint} {us : PyStr} (h : ∀ v vs, us = v :: vs → ¬ (isHigh u ∧ isLow v)) :
    joinPairs (u :: us) = u :: joinPairs us := by
  cases us with
  | nil => simp [joinPairs]
  | cons v vs => rw [joinPairs, if_neg (h v vs rfl)]

theorem joinPairs_pair {c : CodePoint} (hc : 0x10000 ≤ c.val) (us : PyStr) :
    joinPairs (codePoint (highOf c.val) :: codePoint (lowOf c.val) :: us) = c :: joinPairs us := by
  have hlt := c.isLt
  have hhigh : (codePoint (highOf c.val)).val = highOf c.val := codePoint_of_lt (by unfold highOf; omega)
  have hlow : (codePoint (lowOf c.val)).val = lowOf c.val := codePoint_of_lt (by unfold lowOf; omega)
  have hpair : isHigh (codePoint (highOf c.val)) ∧ isLow (codePoint (lowOf c.val)) := by
    simp only [isHigh, isLow, hhigh, hlow, decide_eq_true_eq]
    unfold highOf lowOf
    omega
  have hback : 0x10000 + (highOf c.val - 0xD800) * 1024 + (lowOf c.val - 0xDC00) = c.val := by
    unfold highOf lowOf
    omega
  rw [joinPairs, if_pos hpair, hhigh, hlow, hback, codePoint_val]

theorem joinPairs_units (s : PyStr) (h : Joined s) : joinPairs (s.flatMap unitsOf) = s := by
  induction s with
  | nil => rfl
  | cons c s ih =>
    have hs : Joined s := by
      cases s with
      | nil => trivial
      | cons d s => exact h.2
    by_cases hc : c.val < 0x10000
    · have hunits : unitsOf c = [c] := if_pos hc
      rw [List.flatMap_cons, hunits, List.singleton_append, joinPairs_cons, ih hs]
      intro v vs hv
      cases s with
      | nil => cases hv
      | cons d s =>
        obtain ⟨u, us, hu, hlow⟩ := unitsOf_cons d
        rw [List.flatMap_cons, hu, List.cons_append, List.cons.injEq] at hv
        rintro ⟨hhigh, hlv⟩
        exact h.1 ⟨hhigh, hlow (hv.1 ▸ hlv)⟩
    · have hunits : unitsOf c = [codePoint (highOf c.val), codePoint (lowOf c.val)] := if_neg hc
      rw [List.flatMap_cons, hunits, List.cons_append, List.singleton_append, joinPairs_pair (by omega), ih hs]

theorem parseString_text {s : PyStr} (h : Joined s) (r : List Char) :
    parseString (s.flatMap escapeChar ++ '"' :: r) = some (s, r) := by
  unfold parseString
  rw [scanUnits_text, Option.map_some, joinPairs_units s h]

/-! ## Reading back numbers -/

/-- What may follow a value: nothing that a number goes on with. -/
def ValueEnd (rest : List Char) : Prop :=
  ∀ c r, rest = c :: r → c.isDigit = false ∧ c ≠ '.' ∧ c ≠ 'e' ∧ c ≠ 'E'

theorem span_digits {ds rest : List Char} (hds : ∀ d ∈ ds, d.isDigit = true)
    (hrest : ∀ c r, rest = c :: r → c.isDigit = false) : (ds ++ rest).span Char.isDigit = (ds, rest) := by
  rw [List.span_eq_takeWhile_dropWhile, List.takeWhile_append_of_pos hds, List.dropWhile_append_of_pos hds]
  cases rest with
  | nil => simp
  | cons c r => simp [hrest c r rfl]

theorem someDigits_append {ds rest : List Char} (hds : AllDigits ds)
    (hrest : ∀ c r, rest = c :: r → c.isDigit = false) : someDigits (ds ++ rest) = some (ds, rest) := by
  unfold someDigits
  rw [span_digits hds.2 hrest]
  obtain ⟨d, ds', hd⟩ := List.exists_cons_of_ne_nil hds.1
  rw [hd]

theorem scanWhole_append {whole rest : List Char} (hw : WholePart whole)
    (hrest : ∀ c r, rest = c :: r → c.isDigit = false) : scanWhole (whole ++ rest) = some (whole, rest) := by
  rcases hw with rfl | ⟨hds, hhead⟩
  · rfl
  · obtain ⟨d, ds, rfl⟩ := List.exists_cons_of_ne_nil hds.1
    have hd : d ≠ '0' := by
      rintro rfl
      exact hhead rfl
    rw [List.cons_append, scanWhole.eq_def]
    split
    · rename_i hcons
      rw [List.cons.injEq] at hcons
      exact absurd hcons.1 hd
    · exact someDigits_append hds hrest

theorem scanFraction_append {fraction rest : List Char} (hf : FractionPart fraction)
    (hrest : ∀ c r, rest = c :: r → c.isDigit = false ∧ c ≠ '.') :
    scanFraction (fraction ++ rest) = (fraction, rest) := by
  rcases hf with rfl | ⟨ds, hds, rfl⟩
  · rw [List.nil_append, scanFraction.eq_def]
    split
    · exact absurd rfl (hrest _ _ rfl).2
    · rfl
  · rw [List.cons_append, scanFraction, someDigits_append hds fun c r h => (hrest c r h).1]

theorem scanExponent_append {exponent rest : List Char} (he : ExponentPart exponent) (hrest : ValueEnd rest) :
    scanExponent (exponent ++ rest) = (exponent, rest) := by
  rcases he with rfl | ⟨e, sign, ds, hexp, hsign, hds, rfl⟩
  · cases rest with
    | nil => rfl
    | cons c r =>
      obtain ⟨-, -, he, hE⟩ := hrest c r rfl
      simp [scanExponent, he, hE]
  · have hdigits := someDigits_append hds fun c r h => (hrest c r h).1
    obtain ⟨d, ds', rfl⟩ := List.exists_cons_of_ne_nil hds.1
    have hd : d.isDigit = true := hds.2 d (by simp)
    have hplain : ¬ (d = '+' ∨ d = '-') := by
      rintro (rfl | rfl)
      · exact absurd hd (by decide)
      · exact absurd hd (by decide)
    simp only [List.mem_cons, List.not_mem_nil, or_false] at hsign
    rcases hsign with rfl | rfl | rfl
    · simp only [List.cons_append, List.nil_append] at hdigits ⊢
      simp only [scanExponent, if_pos hexp, if_neg hplain, hdigits]
    · simp only [List.cons_append, List.nil_append] at hdigits ⊢
      simp only [scanExponent, if_pos hexp, true_or, if_true, hdigits]
    · simp only [List.cons_append, List.nil_append] at hdigits ⊢
      simp only [scanExponent, if_pos hexp, or_true, if_true, hdigits]

theorem parseUnsigned_append (floats : FloatText) (negative : Bool) {whole fraction exponent rest : List Char}
    (hw : WholePart whole) (hf : FractionPart fraction) (he : ExponentPart exponent) (hrest : ValueEnd rest) :
    parseUnsigned floats negative (whole ++ fraction ++ exponent ++ rest) =
      if fraction = [] ∧ exponent = [] then some (.int (intValue negative whole), rest)
      else some (.float (floats.value (signText negative ++ whole ++ fraction ++ exponent)), rest) := by
  have hexp : ∀ c r, exponent ++ rest = c :: r → c.isDigit = false ∧ c ≠ '.' := by
    intro c r hcons
    rcases he with rfl | ⟨e, sign, ds, rfl | rfl, -, -, rfl⟩
    · exact ⟨(hrest c r hcons).1, (hrest c r hcons).2.1⟩
    · cases hcons
      decide
    · cases hcons
      decide
  have hfrac : ∀ c r, fraction ++ (exponent ++ rest) = c :: r → c.isDigit = false := by
    intro c r hcons
    rcases hf with rfl | ⟨ds, -, rfl⟩
    · exact (hexp c r hcons).1
    · cases hcons
      decide
  unfold parseUnsigned
  rw [List.append_assoc, List.append_assoc, scanWhole_append hw hfrac]
  simp only [scanFraction_append hf hexp, scanExponent_append he hrest]

theorem toDigits_whole (n : ℕ) : WholePart (Nat.toDigits 10 n) := by
  induction n using Nat.strong_induction_on with
  | _ n ih =>
    by_cases hn : n < 10
    · rw [Nat.toDigits_of_lt_base hn]
      by_cases hzero : n = 0
      · exact .inl (by rw [hzero]; rfl)
      · right
        have hall : ∀ m < 10, m ≠ 0 → (Nat.digitChar m).isDigit = true ∧ Nat.digitChar m ≠ '0' := by decide
        obtain ⟨hdigit, hne⟩ := hall n hn hzero
        exact ⟨⟨by simp, by simpa using hdigit⟩, by simpa using hne⟩
    · right
      refine ⟨⟨Nat.toDigits_ne_nil, fun d hd => Nat.isDigit_of_mem_toDigits (by omega) (by omega) hd⟩, ?_⟩
      rw [Nat.toDigits_of_base_le (by omega) (by omega), List.head?_append_of_ne_nil _ Nat.toDigits_ne_nil]
      rcases ih (n / 10) (by omega) with hz | ⟨-, hhead⟩
      · have hback := Nat.ofDigitChars_ten_toDigits (n := n / 10)
        rw [hz] at hback
        have : n / 10 = 0 := hback.symm
        omega
      · exact hhead

theorem parseNumber_render {floats : FloatText} (n : ℤ) {rest : List Char} (hrest : ValueEnd rest) :
    parseNumber floats (renderInt n ++ rest) = some (.int n, rest) := by
  have hunsigned : ∀ negative, parseUnsigned floats negative (Nat.toDigits 10 n.natAbs ++ rest) =
      some (.int (if negative then -(n.natAbs : ℤ) else n.natAbs), rest) := by
    intro negative
    have h := parseUnsigned_append floats negative (toDigits_whole n.natAbs)
      (.inl rfl) (.inl rfl) hrest
    simpa [intValue, Nat.ofDigitChars_ten_toDigits] using h
  unfold renderInt
  split
  · rw [List.cons_append, parseNumber, hunsigned]
    simp only [if_true]
    congr 3
    omega
  · rw [parseNumber.eq_def]
    split
    · rename_i cs hcons
      obtain ⟨d, ds, hd⟩ := List.exists_cons_of_ne_nil (Nat.toDigits_ne_nil (b := 10) (n := n.natAbs))
      have hdigit : d.isDigit = true :=
        Nat.isDigit_of_mem_toDigits (by omega) (by omega) (hd ▸ List.mem_cons_self)
      rw [hd, List.cons_append, List.cons.injEq] at hcons
      rw [hcons.1] at hdigit
      exact absurd hdigit (by decide)
    · rw [hunsigned]
      simp only [Bool.false_eq_true, if_false]
      congr 3
      omega

/-- A text that starts as numbers do. -/
def NumberStart (cs : List Char) : Prop :=
  ∃ c r, cs = c :: r ∧ (c.isDigit = true ∨ c = '-' ∧ ∃ d r', r = d :: r' ∧ d.isDigit = true)

theorem parseValue_number {floats : FloatText} {cs : List Char} (h : NumberStart cs) (n : ℕ) :
    parseValue floats (n + 1) cs = parseNumber floats cs := by
  obtain ⟨c, r, rfl, hstart⟩ := h
  have hnot : ∀ d : Char, d.isDigit = false → d ≠ '-' → c ≠ d := by
    rintro d hd hminus rfl
    rcases hstart with hc | ⟨hc, -⟩
    · rw [hd] at hc
      cases hc
    · exact hminus hc
  unfold parseValue
  split
  case h_9 hcons =>
    rw [List.cons.injEq] at hcons
    rcases hstart with hc | ⟨-, d, r', hr, hd⟩
    · rw [hcons.1] at hc
      exact absurd hc (by decide)
    · rw [hr, List.cons.injEq] at hcons
      rw [hcons.2.1] at hd
      exact absurd hd (by decide)
  case h_10 => rfl
  all_goals
    rename_i hcons
    rw [List.cons.injEq] at hcons
    exact absurd hcons.1 (hnot _ (by decide) (by decide))

theorem numberStart_of_whole {whole : List Char} (rest : List Char) (h : WholePart whole) (negative : Bool) :
    NumberStart (signText negative ++ whole ++ rest) := by
  have hdigit : ∃ d r, whole = d :: r ∧ d.isDigit = true := by
    rcases h with rfl | ⟨hds, -⟩
    · exact ⟨'0', [], rfl, by decide⟩
    · obtain ⟨d, ds, rfl⟩ := List.exists_cons_of_ne_nil hds.1
      exact ⟨d, ds, rfl, hds.2 d (by simp)⟩
  obtain ⟨d, r, rfl, hd⟩ := hdigit
  cases negative with
  | false => exact ⟨d, r ++ rest, rfl, .inl hd⟩
  | true => exact ⟨'-', d :: r ++ rest, rfl, .inr ⟨rfl, d, r ++ rest, rfl, hd⟩⟩

theorem parseValue_int {floats : FloatText} (k : ℤ) {rest : List Char} (hrest : ValueEnd rest) (n : ℕ) :
    parseValue floats (n + 1) (renderInt k ++ rest) = some (.int k, rest) := by
  rw [parseValue_number, parseNumber_render k hrest]
  have h := numberStart_of_whole rest (toDigits_whole k.natAbs) (decide (k < 0))
  unfold renderInt
  by_cases hk : k < 0
  · simpa [hk, signText] using h
  · simpa [hk, signText] using h

theorem parseValue_float {floats : FloatText} {q : ℚ} (hq : floats.IsDouble q) {rest : List Char}
    (hrest : ValueEnd rest) (n : ℕ) :
    parseValue floats (n + 1) (floats.text q ++ rest) = some (.float (.finite q), rest) := by
  obtain ⟨negative, whole, fraction, exponent, hw, hf, he, hne, htext⟩ := floats.literal q hq
  have hvalue := floats.value_text q hq
  have hunsigned := parseUnsigned_append floats negative hw hf he hrest
  rw [if_neg hne, ← htext, hvalue] at hunsigned
  have hstart : NumberStart (floats.text q ++ rest) := by
    rw [htext]
    have h := numberStart_of_whole (fraction ++ exponent ++ rest) hw negative
    simpa using h
  rw [parseValue_number hstart, htext]
  cases negative with
  | true => simpa [signText, parseNumber] using hunsigned
  | false =>
    obtain ⟨c, r, hcons, hdigit⟩ : ∃ c r, whole = c :: r ∧ c ≠ '-' := by
      rcases hw with rfl | ⟨hds, -⟩
      · exact ⟨'0', [], rfl, by decide⟩
      · obtain ⟨d, ds, rfl⟩ := List.exists_cons_of_ne_nil hds.1
        refine ⟨d, ds, rfl, ?_⟩
        rintro rfl
        exact absurd (hds.2 '-' (by simp)) (by decide)
    simp only [signText, Bool.false_eq_true, if_false, List.nil_append]
    rw [parseNumber.eq_def]
    split
    · rename_i cs hcs
      rw [hcons] at hcs
      simp only [List.cons_append, List.cons.injEq] at hcs
      exact absurd hcs.1 hdigit
    · exact hunsigned

/-! ## Reading back values -/

mutual

/-- A value as `loads` returns it: doubles, joined text, keys apart. -/
def Loaded (floats : FloatText) : Json → Prop
  | .float (.finite q) => floats.IsDouble q
  | .str s => Joined s
  | .arr vs => LoadedItems floats vs
  | .obj ms => (ms.map Prod.fst).Nodup ∧ LoadedMembers floats ms
  | _ => True

def LoadedItems (floats : FloatText) : List Json → Prop
  | [] => True
  | v :: vs => Loaded floats v ∧ LoadedItems floats vs

def LoadedMembers (floats : FloatText) : List (PyStr × Json) → Prop
  | [] => True
  | (k, v) :: ms => Joined k ∧ Loaded floats v ∧ LoadedMembers floats ms

end

theorem skipSpace_of_not {c : Char} (h : isSpace c = false) (r : List Char) : skipSpace (c :: r) = c :: r := by
  simp [skipSpace, h]

theorem skipSpace_one {c : Char} (h : isSpace c = false) (r : List Char) :
    skipSpace (' ' :: c :: r) = c :: r :=
  (show skipSpace (' ' :: c :: r) = skipSpace (c :: r) from rfl).trans (skipSpace_of_not h r)

theorem valueEnd_of {c : Char} (h : c.isDigit = false ∧ c ≠ '.' ∧ c ≠ 'e' ∧ c ≠ 'E') (r : List Char) :
    ValueEnd (c :: r) := by
  intro d r' hcons
  rw [List.cons.injEq] at hcons
  exact hcons.1 ▸ h

/-- What follows a value inside a list or a dictionary ends it. -/
theorem valueEnd_items (floats : FloatText) (vs : List Json) (rest : List Char) :
    ValueEnd (renderItems floats vs ++ rest) := by
  cases vs <;> exact valueEnd_of (by decide) _

theorem valueEnd_members (floats : FloatText) (ms : List (PyStr × Json)) (rest : List Char) :
    ValueEnd (renderMembers floats ms ++ rest) := by
  rcases ms with _ | ⟨⟨k, v⟩, ms⟩
  · exact valueEnd_of (by decide) _
  · rw [renderMembers]
    exact valueEnd_of (by decide) _

/-- No value starts with a space, nor as a list or a dictionary ends. -/
def ValueStart (cs : List Char) : Prop :=
  ∃ c r, cs = c :: r ∧ isSpace c = false ∧ c ≠ ']' ∧ c ≠ '}'

theorem ValueStart.skipSpace {cs : List Char} (h : ValueStart cs) :
    skipSpace cs = cs ∧ skipSpace (' ' :: cs) = cs := by
  obtain ⟨c, r, rfl, hspace, -⟩ := h
  exact ⟨skipSpace_of_not hspace r, skipSpace_one hspace r⟩

theorem valueStart_of_number {cs : List Char} (h : NumberStart cs) : ValueStart cs := by
  obtain ⟨c, r, rfl, hstart⟩ := h
  refine ⟨c, r, rfl, ?_⟩
  rcases hstart with hdigit | ⟨rfl, -⟩
  · have hne : ∀ d : Char, d.isDigit = false → c ≠ d := by
      rintro d hd rfl
      rw [hdigit] at hd
      cases hd
    refine ⟨?_, hne ']' (by decide), hne '}' (by decide)⟩
    simp [isSpace, hne ' ' (by decide), hne '\t' (by decide), hne '\n' (by decide), hne '\r' (by decide)]
  · decide

theorem render_start (floats : FloatText) (v : Json) (h : Loaded floats v) (rest : List Char) :
    ValueStart (render floats v ++ rest) := by
  have hchar : ∀ (c : Char) (r : List Char), isSpace c = false ∧ c ≠ ']' ∧ c ≠ '}' → ValueStart (c :: r) :=
    fun c r hc => ⟨c, r, rfl, hc⟩
  cases v with
  | null => exact hchar _ _ (by decide)
  | bool b => cases b <;> exact hchar _ _ (by decide)
  | int n =>
    have hstart := numberStart_of_whole rest (toDigits_whole n.natAbs) (decide (n < 0))
    refine valueStart_of_number ?_
    simp only [render, renderInt]
    by_cases hn : n < 0
    · simpa [hn, signText] using hstart
    · simpa [hn, signText] using hstart
  | float x =>
    cases x with
    | finite q =>
      obtain ⟨negative, whole, fraction, exponent, hw, -, -, -, htext⟩ := floats.literal q h
      have hstart := numberStart_of_whole (fraction ++ exponent ++ rest) hw negative
      refine valueStart_of_number ?_
      simp only [render, renderFloat, htext]
      simpa using hstart
    | infinity => exact hchar _ _ (by decide)
    | negInfinity => exact hchar _ _ (by decide)
    | nan => exact hchar _ _ (by decide)
  | str s => exact hchar _ _ (by decide)
  | arr vs => cases vs <;> exact hchar _ _ (by decide)
  | obj ms =>
    rcases ms with _ | ⟨⟨k, v⟩, ms⟩
    · exact hchar _ _ (by decide)
    · rw [render]
      exact hchar _ _ (by decide)

theorem parseValue_list {floats : FloatText} {r : List Char} (h : ValueStart r) (n : ℕ) :
    parseValue floats (n + 1) ('[' :: r) = (parseItems floats n r).map fun p => (.arr p.1, p.2) := by
  obtain ⟨c, r', rfl, hspace, hclose, -⟩ := h
  unfold parseValue
  simp only [skipSpace_of_not hspace]
  split
  · rename_i hcons
    exact absurd (List.cons.inj hcons).1 hclose
  · rfl

theorem parseValue_dict {floats : FloatText} (r : List Char) (n : ℕ) :
    parseValue floats (n + 1) ('{' :: '"' :: r) =
      (parseMembers floats n ('"' :: r)).map fun p => (mkObj p.1, p.2) := by
  unfold parseValue
  simp only [skipSpace_of_not (show isSpace '"' = false by decide)]
  rfl

theorem mkObj_of_distinct {ms : List (PyStr × Json)} (h : (ms.map Prod.fst).Nodup) : mkObj ms = .obj ms := by
  unfold mkObj
  rw [Dict.entries_ofPairs_of_nodup h]

theorem renderItems_pos (floats : FloatText) (vs : List Json) : 0 < (renderItems floats vs).length := by
  cases vs <;> simp [renderItems]

theorem renderMembers_pos (floats : FloatText) (ms : List (PyStr × Json)) :
    0 < (renderMembers floats ms).length := by
  rcases ms with _ | ⟨⟨k, v⟩, ms⟩ <;> simp [renderMembers]

theorem parseItems_last {floats : FloatText} {cs r : List Char} {v : Json} {n : ℕ}
    (hv : parseValue floats n cs = some (v, ']' :: r)) : parseItems floats (n + 1) cs = some ([v], r) := by
  unfold parseItems
  simp only [hv, skipSpace_of_not (show isSpace ']' = false by decide)]

theorem parseItems_more {floats : FloatText} {cs r rest : List Char} {v : Json} {vs : List Json} {n : ℕ}
    (hv : parseValue floats n cs = some (v, ',' :: ' ' :: r)) (hstart : ValueStart r)
    (hvs : parseItems floats n r = some (vs, rest)) : parseItems floats (n + 1) cs = some (v :: vs, rest) := by
  unfold parseItems
  simp only [hv, skipSpace_of_not (show isSpace ',' = false by decide), hstart.skipSpace.2, hvs]
  rfl

theorem parseMembers_last {floats : FloatText} {cs body r : List Char} {k : PyStr} {v : Json} {n : ℕ}
    (hk : parseString cs = some (k, ':' :: ' ' :: body)) (hstart : ValueStart body)
    (hv : parseValue floats n body = some (v, '}' :: r)) :
    parseMembers floats (n + 1) ('"' :: cs) = some ([(k, v)], r) := by
  unfold parseMembers
  simp only [hk, skipSpace_of_not (show isSpace ':' = false by decide), hstart.skipSpace.2, hv,
    skipSpace_of_not (show isSpace '}' = false by decide)]

theorem parseMembers_more {floats : FloatText} {cs body r rest : List Char} {k : PyStr} {v : Json}
    {ms : List (PyStr × Json)} {n : ℕ} (hk : parseString cs = some (k, ':' :: ' ' :: body))
    (hstart : ValueStart body) (hv : parseValue floats n body = some (v, ',' :: ' ' :: '"' :: r))
    (hms : parseMembers floats n ('"' :: r) = some (ms, rest)) :
    parseMembers floats (n + 1) ('"' :: cs) = some ((k, v) :: ms, rest) := by
  unfold parseMembers
  simp only [hk, skipSpace_of_not (show isSpace ':' = false by decide), hstart.skipSpace.2, hv,
    skipSpace_of_not (show isSpace ',' = false by decide),
    skipSpace_one (show isSpace '"' = false by decide), hms]
  rfl

mutual

theorem parseValue_render {floats : FloatText} : ∀ (v : Json) (n : ℕ) (rest : List Char), Loaded floats v →
    2 * (render floats v).length ≤ n → ValueEnd rest →
    parseValue floats n (render floats v ++ rest) = some (v, rest)
  | v, 0, rest, hv, hn, _ => by
    obtain ⟨c, r, hcons, -⟩ := render_start floats v hv []
    rw [List.append_nil] at hcons
    rw [hcons] at hn
    simp at hn
  | .null, n + 1, rest, _, _, _ => rfl
  | .bool true, n + 1, rest, _, _, _ => rfl
  | .bool false, n + 1, rest, _, _, _ => rfl
  | .int k, n + 1, rest, _, _, hrest => by
    rw [render]
    exact parseValue_int k hrest n
  | .float (.finite q), n + 1, rest, hv, _, hrest => by
    rw [render, renderFloat]
    exact parseValue_float hv hrest n
  | .float .infinity, n + 1, rest, _, _, _ => rfl
  | .float .negInfinity, n + 1, rest, _, _, _ => rfl
  | .float .nan, n + 1, rest, _, _, _ => rfl
  | .str s, n + 1, rest, hv, _, _ => by
    have htext := parseString_text (s := s) hv rest
    simp only [render, renderStr, List.cons_append, List.append_assoc, List.nil_append, parseValue, htext,
      Option.map_some]
  | .arr [], n + 1, rest, _, _, _ => rfl
  | .arr (v :: vs), n + 1, rest, hv, hn, _ => by
    simp only [render, List.cons_append, List.length_cons, List.length_append] at hn
    rw [render, List.cons_append, List.cons_append, List.append_assoc, parseValue_list (render_start floats v hv.1 _),
      parseItems_render v vs n rest hv.1 hv.2 (by omega)]
    rfl
  | .obj [], n + 1, rest, _, _, _ => rfl
  | .obj ((k, v) :: ms), n + 1, rest, hv, hn, _ => by
    simp only [render, List.cons_append, List.append_assoc, List.length_cons, List.length_append] at hn
    obtain ⟨hdist, hk, hval, hms⟩ := hv
    have hmembers := parseMembers_render k v ms n rest hk hval hms (by omega)
    simp only [render, List.cons_append, List.append_assoc]
    simp only [renderStr, List.cons_append] at hmembers ⊢
    rw [parseValue_dict, hmembers, Option.map_some, mkObj_of_distinct hdist]

theorem parseItems_render {floats : FloatText} : ∀ (v : Json) (vs : List Json) (n : ℕ) (rest : List Char),
    Loaded floats v → LoadedItems floats vs →
    2 * ((render floats v).length + (renderItems floats vs).length) ≤ n →
    parseItems floats n (render floats v ++ (renderItems floats vs ++ rest)) = some (v :: vs, rest)
  | v, vs, 0, rest, _, _, hn => by
    have := renderItems_pos floats vs
    omega
  | v, [], n + 1, rest, hv, _, hn => by
    have hpos := renderItems_pos floats []
    exact parseItems_last (parseValue_render v n _ hv (by omega) (valueEnd_items floats [] rest))
  | v, w :: vs, n + 1, rest, hv, hvs, hn => by
    have hlen : (renderItems floats (w :: vs)).length =
        (render floats w).length + (renderItems floats vs).length + 2 := by
      rw [renderItems]
      simp only [List.length_cons, List.length_append]
      omega
    rw [hlen] at hn
    have hval := parseValue_render v n (renderItems floats (w :: vs) ++ rest) hv (by omega)
      (valueEnd_items floats (w :: vs) rest)
    rw [renderItems, List.cons_append, List.cons_append, List.append_assoc] at hval ⊢
    exact parseItems_more hval (render_start floats w hvs.1 _)
      (parseItems_render w vs n rest hvs.1 hvs.2 (by omega))

theorem parseMembers_render {floats : FloatText} : ∀ (k : PyStr) (v : Json) (ms : List (PyStr × Json)) (n : ℕ)
    (rest : List Char), Joined k → Loaded floats v → LoadedMembers floats ms →
    2 * ((render floats v).length + (renderMembers floats ms).length) ≤ n →
    parseMembers floats n (renderStr k ++ ':' :: ' ' :: (render floats v ++ (renderMembers floats ms ++ rest))) =
      some ((k, v) :: ms, rest)
  | k, v, ms, 0, rest, _, _, _, hn => by
    have := renderMembers_pos floats ms
    omega
  | k, v, [], n + 1, rest, hk, hv, _, hn => by
    have hpos := renderMembers_pos floats []
    have hval := parseValue_render v n _ hv (by omega) (valueEnd_members floats [] rest)
    have hkey := parseString_text hk (':' :: ' ' :: (render floats v ++ (renderMembers floats [] ++ rest)))
    simp only [renderStr, List.cons_append, List.append_assoc, List.nil_append]
    exact parseMembers_last hkey (render_start floats v hv _) hval
  | k, v, (k', w) :: ms, n + 1, rest, hk, hv, hms, hn => by
    have hlen : (renderMembers floats ((k', w) :: ms)).length =
        (renderStr k').length + (render floats w).length + (renderMembers floats ms).length + 4 := by
      rw [renderMembers]
      simp only [List.cons_append, List.length_cons, List.length_append]
      omega
    rw [hlen] at hn
    have hval := parseValue_render v n (renderMembers floats ((k', w) :: ms) ++ rest) hv (by omega)
      (valueEnd_members floats ((k', w) :: ms) rest)
    have hkey := parseString_text hk
      (':' :: ' ' :: (render floats v ++ (renderMembers floats ((k', w) :: ms) ++ rest)))
    have hrest := parseMembers_render k' w ms n rest hms.1 hms.2.1 hms.2.2 (by omega)
    simp only [renderMembers, renderStr, List.cons_append, List.append_assoc, List.nil_append]
      at hval hkey hrest ⊢
    exact parseMembers_more hkey (render_start floats v hv _) hval hrest

end

theorem loads_render {floats : FloatText} {v : Json} (h : Loaded floats v) :
    loads floats (render floats v) = some v := by
  have hstart := render_start floats v h []
  rw [List.append_nil] at hstart
  have hval := parseValue_render v (2 * (render floats v).length + 2) [] h (by omega)
    fun c r hcons => by cases hcons
  rw [List.append_nil] at hval
  unfold loads
  rw [hstart.skipSpace.1, hval]
  rfl

/-! ## Order of keys -/

theorem keyLe_total : ∀ s t : PyStr, keyLe s t = true ∨ keyLe t s = true
  | [], _ => .inl rfl
  | _ :: _, [] => .inr rfl
  | a :: s, b :: t => by
    simp only [keyLe, Bool.or_eq_true, decide_eq_true_eq, Bool.and_eq_true]
    rcases lt_trichotomy a b with h | rfl | h
    · exact .inl (.inl h)
    · rcases keyLe_total s t with hs | ht
      · exact .inl (.inr ⟨rfl, hs⟩)
      · exact .inr (.inr ⟨rfl, ht⟩)
    · exact .inr (.inl h)

theorem keyLe_trans : ∀ s t u : PyStr, keyLe s t = true → keyLe t u = true → keyLe s u = true
  | [], _, _, _, _ => rfl
  | _ :: _, [], _, h, _ => by cases h
  | _ :: _, _ :: _, [], _, h => by cases h
  | a :: s, b :: t, c :: u, hst, htu => by
    simp only [keyLe, Bool.or_eq_true, decide_eq_true_eq, Bool.and_eq_true] at hst htu ⊢
    rcases hst with hab | ⟨rfl, hst⟩
    · rcases htu with hbc | ⟨rfl, -⟩
      · exact .inl (hab.trans hbc)
      · exact .inl hab
    · rcases htu with hbc | ⟨rfl, htu⟩
      · exact .inl hbc
      · exact .inr ⟨rfl, keyLe_trans s t u hst htu⟩

instance : Std.Total fun a b : PyStr × Json => keyLe a.1 b.1 = true := ⟨fun a b => keyLe_total a.1 b.1⟩

instance : IsTrans (PyStr × Json) fun a b => keyLe a.1 b.1 = true := ⟨fun a b c => keyLe_trans a.1 b.1 c.1⟩

def sorted (ms : List (PyStr × Json)) : List (PyStr × Json) :=
  ms.insertionSort fun a b => keyLe a.1 b.1

theorem sortMembers_eq_map (ms : List (PyStr × Json)) :
    sortMembers ms = ms.map fun e => (e.1, sortKeys e.2) := by
  induction ms with
  | nil => rfl
  | cons e ms ih => rw [sortMembers, ih, List.map_cons]

theorem sortItems_eq_map (vs : List Json) : sortItems vs = vs.map sortKeys := by
  induction vs with
  | nil => rfl
  | cons v vs ih => rw [sortItems, ih, List.map_cons]

theorem loadedItems_iff {floats : FloatText} {vs : List Json} :
    LoadedItems floats vs ↔ ∀ v ∈ vs, Loaded floats v := by
  induction vs with
  | nil => simp [LoadedItems]
  | cons v vs ih => simp [LoadedItems, ih]

theorem loadedMembers_iff {floats : FloatText} {ms : List (PyStr × Json)} :
    LoadedMembers floats ms ↔ ∀ e ∈ ms, Joined e.1 ∧ Loaded floats e.2 := by
  induction ms with
  | nil => simp [LoadedMembers]
  | cons e ms ih =>
    obtain ⟨k, v⟩ := e
    simp [LoadedMembers, ih, and_assoc]

theorem mem_sorted {e : PyStr × Json} {ms : List (PyStr × Json)} : e ∈ sorted ms ↔ e ∈ ms :=
  (List.perm_insertionSort _ ms).mem_iff

theorem keys_sorted (ms : List (PyStr × Json)) : ((sorted ms).map Prod.fst).Perm (ms.map Prod.fst) :=
  (List.perm_insertionSort _ ms).map Prod.fst

theorem sorted_sorted (ms : List (PyStr × Json)) : sorted (sorted ms) = sorted ms :=
  (List.pairwise_insertionSort _ ms).insertionSort_eq

theorem keys_sortMembers (ms : List (PyStr × Json)) : (sortMembers ms).map Prod.fst = ms.map Prod.fst := by
  rw [sortMembers_eq_map, List.map_map]
  rfl

mutual

theorem loaded_sortKeys {floats : FloatText} : ∀ v : Json, Loaded floats v → Loaded floats (sortKeys v)
  | .null, h | .bool _, h | .int _, h | .float _, h | .str _, h => h
  | .arr vs, h => loadedItems_sort vs h
  | .obj ms, h => by
    refine ⟨?_, loadedMembers_iff.mpr fun e he => ?_⟩
    · refine (keys_sorted (sortMembers ms)).nodup_iff.mpr ?_
      rw [keys_sortMembers]
      exact h.1
    · exact loadedMembers_iff.mp (loadedMembers_sort ms h.2) e (mem_sorted.mp he)

theorem loadedItems_sort {floats : FloatText} : ∀ vs : List Json, LoadedItems floats vs →
    LoadedItems floats (sortItems vs)
  | [], h => h
  | v :: vs, h => ⟨loaded_sortKeys v h.1, loadedItems_sort vs h.2⟩

theorem loadedMembers_sort {floats : FloatText} : ∀ ms : List (PyStr × Json), LoadedMembers floats ms →
    LoadedMembers floats (sortMembers ms)
  | [], h => h
  | (_, v) :: ms, h => ⟨h.1, loaded_sortKeys v h.2.1, loadedMembers_sort ms h.2.2⟩

end

mutual

theorem sortKeys_idem : ∀ v : Json, sortKeys (sortKeys v) = sortKeys v
  | .null | .bool _ | .int _ | .float _ | .str _ => rfl
  | .arr vs => by
    rw [sortKeys, sortKeys, sortItems_idem]
  | .obj ms => by
    have hmembers : sortMembers (sorted (sortMembers ms)) = sorted (sortMembers ms) := by
      rw [sortMembers_eq_map (sorted _)]
      refine (List.map_congr_left fun e he => ?_).trans (List.map_id _)
      rw [sortMembers_idem ms e (mem_sorted.mp he)]
      rfl
    change Json.obj (sorted (sortMembers (sorted (sortMembers ms)))) = .obj (sorted (sortMembers ms))
    rw [hmembers, sorted_sorted]

theorem sortItems_idem : ∀ vs : List Json, sortItems (sortItems vs) = sortItems vs
  | [] => rfl
  | v :: vs => by
    rw [sortItems, sortItems, sortKeys_idem v, sortItems_idem vs]

theorem sortMembers_idem : ∀ (ms : List (PyStr × Json)) (e : PyStr × Json), e ∈ sortMembers ms →
    sortKeys e.2 = e.2
  | [], _, h => absurd h List.not_mem_nil
  | (k, v) :: ms, e, h => by
    rw [sortMembers, List.mem_cons] at h
    rcases h with rfl | h
    · exact sortKeys_idem v
    · exact sortMembers_idem ms e h

end

/-- Equal values, the order of their keys apart. -/
def SameValue (v w : Json) : Prop := sortKeys v = sortKeys w

/-- What is dumped loads back as the value it was. -/
theorem loads_dumps {floats : FloatText} {v : Json} (h : Loaded floats v) :
    loads floats (dumps floats v) = some (sortKeys v) :=
  loads_render (loaded_sortKeys v h)

theorem sameValue_sortKeys (v : Json) : SameValue (sortKeys v) v := sortKeys_idem v

/-! ## What `loads` returns -/

theorem joinPairs_head : ∀ (s : PyStr) (c : CodePoint) (r : PyStr), joinPairs s = c :: r → isLow c = true →
    ∃ t, s = c :: t
  | [], _, _, h, _ => by simp [joinPairs] at h
  | [u], c, _, h, _ => by
    simp only [joinPairs, List.cons.injEq] at h
    exact ⟨[], by rw [h.1]⟩
  | hi :: lo :: t, c, r, h, hlow => by
    rw [joinPairs] at h
    split at h
    · rename_i hpair
      rw [List.cons.injEq] at h
      simp only [isHigh, isLow, decide_eq_true_eq] at hpair hlow
      rw [← h.1, codePoint_of_lt (by omega)] at hlow
      omega
    · rw [List.cons.injEq] at h
      exact ⟨lo :: t, by rw [h.1]⟩

theorem joined_joinPairs : ∀ s : PyStr, Joined (joinPairs s)
  | [] => by simp [joinPairs, Joined]
  | [u] => by simp [joinPairs, Joined]
  | hi :: lo :: t => by
    have hcons : ∀ (c : CodePoint) (us : PyStr), Joined us → (∀ d r, us = d :: r → ¬ (isHigh c ∧ isLow d)) →
        Joined (c :: us) := by
      intro c us hus hnot
      cases us with
      | nil => trivial
      | cons d r => exact ⟨hnot d r rfl, hus⟩
    rw [joinPairs]
    split
    · rename_i hpair
      refine hcons _ _ (joined_joinPairs t) ?_
      rintro d r - ⟨hhigh, -⟩
      simp only [isHigh, isLow, decide_eq_true_eq] at hpair hhigh
      rw [codePoint_of_lt (by omega)] at hhigh
      omega
    · rename_i hpair
      refine hcons _ _ (joined_joinPairs (lo :: t)) ?_
      rintro d r hjoin ⟨hhigh, hlow⟩
      obtain ⟨t', ht⟩ := joinPairs_head _ d r hjoin hlow
      rw [List.cons.injEq] at ht
      exact hpair ⟨hhigh, ht.1 ▸ hlow⟩

theorem parseString_joined {cs r : List Char} {s : PyStr} (h : parseString cs = some (s, r)) : Joined s := by
  unfold parseString at h
  obtain ⟨p, -, hp⟩ := Option.map_eq_some_iff.mp h
  rw [Prod.mk.injEq] at hp
  exact hp.1 ▸ joined_joinPairs p.1

theorem parseUnsigned_loaded {floats : FloatText} {negative : Bool} {cs r : List Char} {v : Json}
    (h : parseUnsigned floats negative cs = some (v, r)) : Loaded floats v := by
  unfold parseUnsigned at h
  split at h
  · cases h
  · simp only at h
    split at h
    · cases h
      trivial
    · cases h
      cases hx : floats.value _ with
      | finite q => exact floats.value_double _ q hx
      | _ => trivial

theorem parseNumber_loaded {floats : FloatText} {cs r : List Char} {v : Json}
    (h : parseNumber floats cs = some (v, r)) : Loaded floats v := by
  unfold parseNumber at h
  split at h
  · exact parseUnsigned_loaded h
  · exact parseUnsigned_loaded h

theorem loaded_mkObj {floats : FloatText} {ms : List (PyStr × Json)} (h : LoadedMembers floats ms) :
    Loaded floats (mkObj ms) := by
  refine ⟨(Dict.ofPairs ms).distinct, loadedMembers_iff.mpr ?_⟩
  rintro ⟨k, v⟩ he
  exact loadedMembers_iff.mp h (k, v) (Dict.mem_of_get?_ofPairs (Dict.get?_of_mem he))

/-- One level of the parser, the levels below it being good. -/
theorem parse_loaded (floats : FloatText) (n : ℕ) :
    (∀ cs v r, parseValue floats n cs = some (v, r) → Loaded floats v) ∧
    (∀ cs vs r, parseItems floats n cs = some (vs, r) → LoadedItems floats vs) ∧
    (∀ cs ms r, parseMembers floats n cs = some (ms, r) → LoadedMembers floats ms) := by
  induction n with
  | zero =>
    refine ⟨?_, ?_, ?_⟩
    · intro cs v r h
      simp [parseValue] at h
    · intro cs v r h
      simp [parseItems] at h
    · intro cs v r h
      simp [parseMembers] at h
  | succ n ih =>
    obtain ⟨hvalue, hitems, hmembers⟩ := ih
    refine ⟨?_, ?_, ?_⟩
    · intro cs v r h
      unfold parseValue at h
      split at h
      case h_1 =>
        obtain ⟨p, hp, heq⟩ := Option.map_eq_some_iff.mp h
        cases heq
        exact parseString_joined hp
      case h_2 =>
        split at h
        · cases h
          trivial
        · obtain ⟨p, hp, heq⟩ := Option.map_eq_some_iff.mp h
          cases heq
          exact hitems _ p.1 p.2 hp
      case h_3 =>
        split at h
        · cases h
          exact ⟨List.nodup_nil, trivial⟩
        · obtain ⟨p, hp, heq⟩ := Option.map_eq_some_iff.mp h
          cases heq
          exact loaded_mkObj (hmembers _ p.1 p.2 hp)
      case h_10 => exact parseNumber_loaded h
      all_goals
        cases h
        trivial
    · intro cs vs r h
      unfold parseItems at h
      split at h
      · cases h
      · rename_i v r' hv
        split at h
        · obtain ⟨p, hp, heq⟩ := Option.map_eq_some_iff.mp h
          cases heq
          exact ⟨hvalue _ v _ hv, hitems _ p.1 p.2 hp⟩
        · cases h
          exact ⟨hvalue _ v _ hv, trivial⟩
        · cases h
    · intro cs ms r h
      unfold parseMembers at h
      split at h
      · split at h
        · cases h
        · rename_i k r' hk
          split at h
          · split at h
            · cases h
            · rename_i v r'' hv
              split at h
              · obtain ⟨p, hp, heq⟩ := Option.map_eq_some_iff.mp h
                cases heq
                exact ⟨parseString_joined hk, hvalue _ v _ hv, hmembers _ p.1 p.2 hp⟩
              · cases h
                exact ⟨parseString_joined hk, hvalue _ v _ hv, trivial⟩
              · cases h
          · cases h
      · cases h

theorem loads_loaded {floats : FloatText} {text : List Char} {v : Json} (h : loads floats text = some v) :
    Loaded floats v := by
  unfold loads at h
  split at h
  · cases h
  · rename_i w rest hw
    split at h
    · cases h
      exact (parse_loaded floats _).1 _ _ _ hw
    · cases h

end Shapeflow.Py
