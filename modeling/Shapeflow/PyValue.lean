import Mathlib.Data.Rat.Floor
import Mathlib.Algebra.Order.Ring.Rat

set_option autoImplicit false

/-!
# Values that `json.loads` returns

Text is a list of code points, since Python strings hold surrogates that no
UTF-8 text can. Floats are rationals, infinities and NaN. Reading an untrusted
value raises; which exception it raises is part of the result.
-/
namespace Shapeflow.Py

abbrev CodePoint : Type := Fin 0x110000

abbrev PyStr : Type := List CodePoint

instance pyStrLawfulBEq : LawfulBEq PyStr := inferInstance

def codePoint (n : ℕ) : CodePoint := Fin.ofNat 0x110000 n

def pyStr (s : String) : PyStr := s.toList.map fun c => codePoint c.toNat

def isHigh (c : CodePoint) : Bool := 0xD800 ≤ c.val ∧ c.val ≤ 0xDBFF

def isLow (c : CodePoint) : Bool := 0xDC00 ≤ c.val ∧ c.val ≤ 0xDFFF

inductive PyError
  | attributeError
  | typeError
  | valueError
  | overflowError
  | keyError
  | indexError
  | unicodeEncodeError
deriving DecidableEq, Repr

/-- Text that UTF-8 can carry: no surrogate in it. -/
def Encodable (s : PyStr) : Prop := ∀ c ∈ s, ¬ (isHigh c ∨ isLow c)

instance (s : PyStr) : Decidable (Encodable s) := List.decidableBAll _ s

def encode (s : PyStr) : Except PyError String :=
  if Encodable s then .ok (String.ofList (s.map fun c => Char.ofNat c.val))
  else .error .unicodeEncodeError

inductive PyFloat
  | finite (q : ℚ)
  | infinity
  | negInfinity
  | nan
deriving DecidableEq, Repr

inductive Json
  | null
  | bool (b : Bool)
  | int (n : ℤ)
  | float (x : PyFloat)
  | str (s : PyStr)
  | arr (items : List Json)
  | obj (members : List (PyStr × Json))

/-- `bool(v)` -/
def Json.truthy : Json → Bool
  | .null => false
  | .bool b => b
  | .int n => n ≠ 0
  | .float x => x ≠ .finite 0
  | .str s => s ≠ []
  | .arr items => !items.isEmpty
  | .obj members => !members.isEmpty

/-- `v or other` -/
def Json.orElse (v other : Json) : Json := if v.truthy then v else other

def member (members : List (PyStr × Json)) (key : PyStr) : Option Json :=
  (members.find? fun e => e.1 = key).map Prod.snd

/-- `members.get(key, default)` of a dictionary. -/
def memberD (members : List (PyStr × Json)) (key : PyStr) (default : Json) : Json :=
  (member members key).getD default

/-- `v.get(key, default)` of anything: only a dictionary has a `get`. -/
def Json.get (v : Json) (key : PyStr) (default : Json) : Except PyError Json :=
  match v with
  | .obj members => .ok (memberD members key default)
  | _ => .error .attributeError

/-- Python's conversions between text and values, and how it writes a float. -/
structure PyText where
  floatOf : PyStr → Option PyFloat
  intOf : PyStr → Option ℤ
  /-- `str(v)` of a value that is no text; its surrogates come out escaped. -/
  repr : Json → PyStr
  repr_encodable : ∀ v, Encodable (repr v)

/-- The least integer too large to round to a float. -/
def floatOverflow : ℕ := 2 ^ 1024 - 2 ^ 970

/-- `float(v)` -/
def toFloat (text : PyText) : Json → Except PyError PyFloat
  | .bool b => .ok (.finite (if b then 1 else 0))
  | .int n => if n.natAbs < floatOverflow then .ok (.finite n) else .error .overflowError
  | .float x => .ok x
  | .str s =>
    match text.floatOf s with
    | some x => .ok x
    | none => .error .valueError
  | .null | .arr _ | .obj _ => .error .typeError

/-- `int(x)` of a float, towards zero. -/
def truncate : PyFloat → Except PyError ℤ
  | .finite q => .ok (if 0 ≤ q then ⌊q⌋ else ⌈q⌉)
  | .nan => .error .valueError
  | .infinity | .negInfinity => .error .overflowError

/-- `int(v)` -/
def toInt (text : PyText) : Json → Except PyError ℤ
  | .bool b => .ok (if b then 1 else 0)
  | .int n => .ok n
  | .float x => truncate x
  | .str s =>
    match text.intOf s with
    | some n => .ok n
    | none => .error .valueError
  | .null | .arr _ | .obj _ => .error .typeError

/-- `str(v)` -/
def toStr (text : PyText) : Json → PyStr
  | .str s => s
  | v => text.repr v

/-- `v[0]`: the first item of a list, the first character of a text. -/
def first : Json → Except PyError Json
  | .arr [] | .str [] => .error .indexError
  | .arr (v :: _) => .ok v
  | .str (c :: _) => .ok (.str [c])
  | .obj _ => .error .keyError
  | .null | .bool _ | .int _ | .float _ => .error .typeError

/-! ## Arithmetic on floats -/

namespace PyFloat

def neg : PyFloat → PyFloat
  | finite q => finite (-q)
  | infinity => negInfinity
  | negInfinity => infinity
  | nan => nan

def add : PyFloat → PyFloat → PyFloat
  | finite p, finite q => finite (p + q)
  | nan, _ | _, nan => nan
  | infinity, negInfinity | negInfinity, infinity => nan
  | infinity, _ | _, infinity => infinity
  | negInfinity, _ | _, negInfinity => negInfinity

def sub (x y : PyFloat) : PyFloat := add x y.neg

/-- A product with a finite factor. -/
def scale (k : ℚ) : PyFloat → PyFloat
  | finite q => finite (q * k)
  | nan => nan
  | infinity => if k = 0 then nan else if 0 < k then infinity else negInfinity
  | negInfinity => if k = 0 then nan else if 0 < k then negInfinity else infinity

/-- `x < y`, false when either is NaN. -/
def less : PyFloat → PyFloat → Bool
  | finite p, finite q => p < q
  | nan, _ | _, nan => false
  | negInfinity, y => y ≠ negInfinity
  | x, infinity => x ≠ infinity
  | infinity, _ | _, negInfinity => false

/-- `max(x, y)`: the second only when it is greater. -/
def max (x y : PyFloat) : PyFloat := if x.less y then y else x

/-- `min(x, y)`: the second only when it is less. -/
def min (x y : PyFloat) : PyFloat := if y.less x then y else x

end PyFloat
end Shapeflow.Py
