import Shapeflow.Dict
import Shapeflow.PyValue

set_option autoImplicit false

/-!
# Containers built from untrusted values

`list(v)`, `dict(v)`, `for x in v` and `str(v.get(key) or "")` of a value that
`json.loads` returned, with the exception each raises on a value of another kind.
-/
namespace Shapeflow.Py

/-- What a dictionary tells its keys apart by: `1`, `1.0` and `True` are one key. -/
inductive Key
  | none
  | number (x : PyFloat)
  | text (s : PyStr)
deriving DecidableEq, Repr

/-- `hash(v)`, refused for what can change. -/
def keyOf : Json → Except PyError Key
  | .null => .ok .none
  | .bool b => .ok (.number (.finite (if b then 1 else 0)))
  | .int n => .ok (.number (.finite n))
  | .float x => .ok (.number x)
  | .str s => .ok (.text s)
  | .arr _ | .obj _ => .error .typeError

/-- `n == v` -/
def equalsInt (n : ℤ) : Json → Bool
  | .bool b => n = if b then 1 else 0
  | .int m => n = m
  | .float (.finite q) => (n : ℚ) = q
  | _ => false

/-- `list(v)` -/
def toList : Json → Except PyError (List Json)
  | .arr items => .ok items
  | .str s => .ok (s.map fun c => .str [c])
  | .obj members => .ok (members.map fun e => .str e.1)
  | .null | .bool _ | .int _ | .float _ => .error .typeError

/-- An element of the sequence a dictionary is made from: anything with two items. -/
def toPair (v : Json) : Except PyError (Json × Json) := do
  match ← toList v with
  | [a, b] => .ok (a, b)
  | _ => .error .valueError

/-- A dictionary whose keys need not be text, each with the key as it was first given. -/
abbrev PyDict : Type := Dict Key (Json × Json)

def PyDict.insert (d : PyDict) (k v : Json) : Except PyError PyDict := do
  let key ← keyOf k
  pure (d.set key (((d.get? key).map Prod.fst).getD k, v))

/-- `dict(v)` -/
def toDict : Json → Except PyError PyDict
  | .obj members => members.foldlM (fun d e => d.insert (.str e.1) e.2) Dict.empty
  | v => do
    let pairs ← (← toList v).mapM toPair
    pairs.foldlM (fun d e => d.insert e.1 e.2) Dict.empty

/-- A dictionary that is known to have text for keys. -/
abbrev Members : Type := List (PyStr × Json)

/-- `members.get(key)` -/
def Members.get (members : Members) (key : String) : Json := memberD members (pyStr key) .null

/-- `str(v or "")` -/
def textOr (text : PyText) (v : Json) : PyStr := toStr text (v.orElse (.str []))

/-- `str(v.get(key) or "")` -/
def Json.textField (text : PyText) (v : Json) (key : String) : Except PyError PyStr := do
  pure (textOr text (← v.get (pyStr key) .null))

/-- `list(v.get(key) or ())` -/
def Json.listField (v : Json) (key : String) : Except PyError (List Json) := do
  toList ((← v.get (pyStr key) .null).orElse (.arr []))

theorem toNat_lt (c : Char) : c.toNat < 0x110000 := by
  have hvalid : c.toNat.isValidChar := c.valid
  unfold Nat.isValidChar at hvalid
  omega

theorem codePoint_injective : Function.Injective fun c : Char => codePoint c.toNat := by
  intro a b h
  have hval := congrArg Fin.val h
  simp only [codePoint, Fin.ofNat, Nat.mod_eq_of_lt (toNat_lt a), Nat.mod_eq_of_lt (toNat_lt b)] at hval
  exact Char.ext (UInt32.toNat_inj.mp hval)

theorem pyStr_injective : Function.Injective pyStr := by
  intro s t h
  exact String.toList_inj.mp (List.map_injective_iff.mpr codePoint_injective h)

end Shapeflow.Py
