import Mathlib.Data.List.Basic

set_option autoImplicit false

/-!
# Text as bytes

`utf8` and `decode` are a text's encoding and the strict decoder. An offset
into a text is the number of bytes before it.
-/
namespace Shapeflow.Utf8

/-- `text.encode("utf-8")` -/
def utf8 (cs : List Char) : ByteArray := (String.ofList cs).toByteArray

/-- `raw.decode("utf-8", errors="strict")`; `none` where it raises. -/
def decode (raw : ByteArray) : Option (List Char) := raw.utf8Decode?.map Array.toList

theorem utf8_eq (cs : List Char) : utf8 cs = cs.utf8Encode := String.toByteArray_ofList

theorem utf8_append (xs ys : List Char) : utf8 (xs ++ ys) = utf8 xs ++ utf8 ys := by
  simp only [utf8_eq, List.utf8Encode_append]

@[simp] theorem decode_utf8 (cs : List Char) : decode (utf8 cs) = some cs := by
  unfold decode
  rw [utf8_eq, List.utf8Decode?_utf8Encode]
  rfl

theorem utf8_injective : Function.Injective utf8 := by
  intro xs ys h
  have hdecoded := congrArg decode h
  rw [decode_utf8, decode_utf8] at hdecoded
  exact Option.some.inj hdecoded

/-- What decodes is the encoding of the text it decodes to. -/
theorem utf8_of_decode {raw : ByteArray} {cs : List Char} (h : decode raw = some cs) : utf8 cs = raw := by
  unfold decode at h
  obtain ⟨chars, hchars, rfl⟩ := Option.map_eq_some_iff.mp h
  have hsome : raw.utf8Decode?.isSome := by
    rw [hchars]
    rfl
  have hget : raw.utf8Decode?.get hsome = chars := by
    simp [hchars]
  rw [utf8_eq, ← hget]
  exact ByteArray.utf8Encode_get_utf8Decode?

end Shapeflow.Utf8
