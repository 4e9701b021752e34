import Mathlib.Data.Rat.Defs
import Shapeflow.BijectiveBase

set_option autoImplicit false

/-!
# The publication handle codec

The structural coordinates of a span are packed into one integer by mixed
radix, which is rendered in bijective base 26 behind the letter `H`.
-/
namespace Shapeflow.HandleCodec

/-- A value handed to the codec: `isinstance` tells integers from booleans and from the rest. -/
inductive Arg
  | int (value : ℤ)
  | bool (value : Bool)
  | other
deriving DecidableEq, Repr

/-- The exceptions of the codec; the texts are made of the data they carry. -/
inductive HandleError
  | notPositive (radix : String)
  | notNonNegative (name : String)
  | notInteger (name : String)
  | belowMinimum (name : String) (value low : ℤ)
  | exceedsDomain (name : String) (value radix : ℤ)
  | notAHandle (handle : String)
  | notADigit (body : String) (ch : Char)
  | outsideDomain (handle : String)
deriving DecidableEq, Repr

/-- The frozen bound of each coordinate, at least 1 as the constructor checks. -/
structure HandleRadices where
  researcherIteration : ℤ
  childOrdinal : ℤ
  assistantTurn : ℤ
  toolset : ℤ
  evidence : ℤ
  researcherIteration_pos : 1 ≤ researcherIteration
  childOrdinal_pos : 1 ≤ childOrdinal
  assistantTurn_pos : 1 ≤ assistantTurn
  toolset_pos : 1 ≤ toolset
  evidence_pos : 1 ≤ evidence

/-- One check of `__post_init__`. -/
def positiveRadix (name : String) : Arg → Except HandleError {n : ℤ // 1 ≤ n}
  | .int n => if h : 1 ≤ n then .ok ⟨n, h⟩ else .error (.notPositive name)
  | _ => .error (.notPositive name)

def HandleRadices.construct (researcherIteration childOrdinal assistantTurn toolset evidence : Arg) :
    Except HandleError HandleRadices := do
  let i ← positiveRadix "researcher_iteration" researcherIteration
  let c ← positiveRadix "child_ordinal" childOrdinal
  let a ← positiveRadix "assistant_turn" assistantTurn
  let t ← positiveRadix "toolset" toolset
  let e ← positiveRadix "evidence" evidence
  pure ⟨i.1, c.1, a.1, t.1, e.1, i.2, c.2, a.2, t.2, e.2⟩

namespace HandleRadices

/-- Positions of the nested-researcher coordinate, plus one for "not nested". -/
def structural (r : HandleRadices) : ℤ := 1 + r.researcherIteration * r.childOrdinal

def capacity (r : HandleRadices) : ℤ := r.structural * r.assistantTurn * r.toolset * r.evidence

end HandleRadices

def frozenRadices : HandleRadices where
  researcherIteration := 8
  childOrdinal := 2
  assistantTurn := 16
  toolset := 4
  evidence := 24000
  researcherIteration_pos := by decide
  childOrdinal_pos := by decide
  assistantTurn_pos := by decide
  toolset_pos := by decide
  evidence_pos := by decide

/-- One turn of the loop of `structural_ordinal`. -/
def researcherPart (name : String) (value : Arg) (radix : ℤ) : Except HandleError ℤ :=
  match value with
  | .int n =>
    if n < 0 then .error (.notNonNegative name)
    else if n ≥ radix then .error (.exceedsDomain name n radix)
    else .ok n
  | _ => .error (.notNonNegative name)

def structuralOrdinal (radices : HandleRadices) (researcherCoordinate : Option (Arg × Arg)) :
    Except HandleError ℤ :=
  match researcherCoordinate with
  | none => .ok 0
  | some (iteration, childOrdinal) => do
    let i ← researcherPart "researcher iteration" iteration radices.researcherIteration
    let c ← researcherPart "child ordinal" childOrdinal radices.childOrdinal
    pure (1 + i * radices.childOrdinal + c)

def alphabet : List Char :=
  ['a', 'b', 'c', 'd', 'e', 'f', 'g', 'h', 'i', 'j', 'k', 'l', 'm', 'n', 'o', 'p', 'q', 'r', 's', 't',
    'u', 'v', 'w', 'x', 'y', 'z']

/-- `_VALUE.get`: the place of a letter, from 1. -/
def letterValue (ch : Char) : Option ℕ := (alphabet.idxOf? ch).map (· + 1)

/-- The `while` loop of `_bijective_encode`, appending to `out`. -/
def bijectiveEncodeLoop (value : ℕ) (out : List Char) : List Char :=
  if value = 0 then out
  else bijectiveEncodeLoop ((value - 1) / 26) (out ++ [alphabet.getD ((value - 1) % 26) 'a'])
termination_by value
decreasing_by
  have hle := Nat.div_le_self (value - 1) 26
  omega

def bijectiveEncode (value : ℕ) : List Char := (bijectiveEncodeLoop value []).reverse

/-- The `for` loop of `_bijective_decode` from the running value. -/
def bijectiveDecodeLoop (body : List Char) : List Char → ℕ → Except HandleError ℕ
  | [], value => .ok value
  | ch :: rest, value =>
    match letterValue ch with
    | none => .error (.notADigit (.ofList body) ch)
    | some digit => bijectiveDecodeLoop body rest (value * 26 + digit)

def bijectiveDecode (body : List Char) : Except HandleError ℕ := bijectiveDecodeLoop body body 0

/-- One turn of the loop of `_pack`. -/
def coordinate (name : String) (value : Arg) (radix low : ℤ) : Except HandleError ℤ :=
  match value with
  | .int n =>
    if n < low then .error (.belowMinimum name n low)
    else if n - low ≥ radix then .error (.exceedsDomain name n radix)
    else .ok n
  | _ => .error (.notInteger name)

def pack (structural assistantTurn toolset evidence : Arg) (radices : HandleRadices) :
    Except HandleError ℤ := do
  let s ← coordinate "structural ordinal" structural radices.structural 0
  let a ← coordinate "assistant turn index" assistantTurn radices.assistantTurn 0
  let t ← coordinate "toolset ordinal" toolset radices.toolset 0
  let e ← coordinate "evidence ordinal" evidence radices.evidence 1
  let index := s
  let index := index * radices.assistantTurn + a
  let index := index * radices.toolset + t
  pure (index * radices.evidence + (e - 1))

/-- `_PREFIX + _bijective_encode(index + 1)`; the loop takes no turn on a value that is not positive. -/
def render (index : ℤ) : String := .ofList ('H' :: bijectiveEncode (index + 1).toNat)

def encode (radices : HandleRadices) (structural assistantTurn toolset evidence : Arg) :
    Except HandleError String := do
  let index ← pack structural assistantTurn toolset evidence radices
  pure (render index)

/-- The handle's coordinates, as `decode` returns them. -/
abbrev Coordinates : Type := ℤ × ℤ × ℤ × ℤ

def decode (radices : HandleRadices) (handle : String) : Except HandleError Coordinates :=
  match handle.toList with
  | 'H' :: ch :: rest => do
    let decoded ← bijectiveDecode (ch :: rest)
    let index : ℤ := decoded - 1
    if index < 0 ∨ index ≥ radices.capacity then .error (.outsideDomain handle)
    else
      let evidence := index % radices.evidence
      let index := index / radices.evidence
      let toolset := index % radices.toolset
      let index := index / radices.toolset
      pure (index / radices.assistantTurn, index % radices.assistantTurn, toolset, evidence + 1)
  | _ => .error (.notAHandle handle)

/-- `encode(*coordinates)` on the integers that `decode` gave. -/
def encodeCoordinates (radices : HandleRadices) (x : Coordinates) : Except HandleError String :=
  encode radices (.int x.1) (.int x.2.1) (.int x.2.2.1) (.int x.2.2.2)

/-- Only the exceptions of `decode` are caught. -/
def validate (radices : HandleRadices) (handle : String) : Except HandleError Bool :=
  match decode radices handle with
  | .error _ => .ok false
  | .ok coordinates => do
    let again ← encodeCoordinates radices coordinates
    pure (again = handle)

def maxEncodedWidth (radices : HandleRadices) : ℕ := (bijectiveEncode radices.capacity.toNat).length

/-- Everything the generator yields. -/
def iterDomain (radices : HandleRadices) : List String :=
  (List.range radices.capacity.toNat).map fun index : ℕ => render index

end Shapeflow.HandleCodec
