import Shapeflow.Dict

set_option autoImplicit false

/-!
# The content-addressed object store

A blob is filed under the hash of its bytes. Writing is all or nothing and never
touches a file that is there; reading checks the bytes against the key.
-/
namespace Shapeflow

/-- A file holds the bytes it decompresses to, or nothing when it does not decompress. -/
structure ObjectStore (β : Type) where
  files : Dict String (Option β)

inductive StoreError
  | valueError
  | keyError
  | corruptObject
deriving DecidableEq, Repr

namespace ObjectStore
variable {β : Type}

def empty : ObjectStore β := ⟨Dict.empty⟩

/-- The check of `_path_for`. -/
def isKey (key : String) : Bool :=
  key.toList.length = 64 ∧ key.toList.all fun c => c ∈ "0123456789abcdef".toList

def has (s : ObjectStore β) (key : String) : Bool := key ∈ s.files.keys

/-- `put_bytes`: an existing file is trusted. -/
def putBytes (hash : β → String) (s : ObjectStore β) (raw : β) : ObjectStore β :=
  if s.has (hash raw) then s else ⟨s.files.set (hash raw) (some raw)⟩

def getBytes (hash : β → String) (s : ObjectStore β) (key : String) : Except StoreError β :=
  if isKey key then
    match s.files.get? key with
    | none => .error .keyError
    | some none => .error .corruptObject
    | some (some raw) => if hash raw = key then .ok raw else .error .corruptObject
  else .error .valueError

/-- `verify`; a malformed key still raises. -/
def verify (hash : β → String) (s : ObjectStore β) (key : String) : Except StoreError Bool :=
  match getBytes hash s key with
  | .ok _ => .ok true
  | .error .valueError => .error .valueError
  | .error _ => .ok false

/-- The blob under a key is there and hashes to it. -/
def Verifies (hash : β → String) (s : ObjectStore β) (key : String) : Prop :=
  ∃ raw, getBytes hash s key = .ok raw

/-- No file was damaged: each holds bytes that hash to its key. -/
def Intact (hash : β → String) (s : ObjectStore β) : Prop :=
  ∀ key content, s.files.get? key = some content → ∃ raw, content = some raw ∧ hash raw = key

variable {hash : β → String}

theorem intact_empty : Intact hash (empty : ObjectStore β) := by
  intro key content h
  cases h

theorem getBytes_ok {s : ObjectStore β} {key : String} {raw : β} :
    getBytes hash s key = .ok raw ↔ isKey key ∧ s.files.get? key = some (some raw) ∧ hash raw = key := by
  unfold getBytes
  split
  · rename_i hkey
    split
    · rename_i h
      simp [h]
    · rename_i h
      simp [h]
    · rename_i raw' h
      split
      · rename_i hraw
        simp only [Except.ok.injEq, h, Option.some.injEq, hkey, true_and]
        constructor
        · rintro rfl
          exact ⟨rfl, hraw⟩
        · exact fun h => h.1
      · rename_i hraw
        simp only [reduceCtorEq, h, Option.some.injEq, hkey, true_and, false_iff, not_and]
        rintro rfl
        exact hraw
  · rename_i hkey
    simp [hkey]

theorem verify_true {s : ObjectStore β} {key : String} :
    verify hash s key = .ok true ↔ Verifies hash s key := by
  unfold verify Verifies
  cases h : getBytes hash s key with
  | ok raw => simp
  | error e => cases e <;> simp

theorem get?_putBytes (s : ObjectStore β) (raw : β) (key : String) :
    (putBytes hash s raw).files.get? key =
      if key = hash raw ∧ ¬ s.has (hash raw) then some (some raw) else s.files.get? key := by
  unfold putBytes
  split
  · rename_i h
    rw [if_neg fun hk => hk.2 h]
  · rename_i h
    rw [Dict.get?_set]
    by_cases hk : key = hash raw
    · rw [if_pos hk, if_pos ⟨hk, h⟩]
    · rw [if_neg hk, if_neg fun hk' => hk hk'.1]

/-- What could be read before can be read after. -/
theorem getBytes_putBytes_mono {s : ObjectStore β} {key : String} {old : β} (raw : β)
    (h : getBytes hash s key = .ok old) : getBytes hash (putBytes hash s raw) key = .ok old := by
  obtain ⟨hkey, hget, hhash⟩ := getBytes_ok.mp h
  refine getBytes_ok.mpr ⟨hkey, ?_, hhash⟩
  rw [get?_putBytes, if_neg, hget]
  rintro ⟨rfl, hnot⟩
  refine hnot ?_
  simp only [has, decide_eq_true_eq]
  exact Dict.mem_keys_iff.mpr ⟨_, hget⟩

theorem intact_putBytes {s : ObjectStore β} (h : Intact hash s) (raw : β) :
    Intact hash (putBytes hash s raw) := by
  intro key content hget
  rw [get?_putBytes] at hget
  split at hget
  · rename_i hk
    cases hget
    exact ⟨raw, rfl, hk.1.symm⟩
  · exact h key content hget

/-- In an undamaged store in which no other blob has its hash, what was put is read back. -/
theorem getBytes_putBytes {s : ObjectStore β} (h : Intact hash s) {raw : β} (hkey : isKey (hash raw))
    (hfree : ∀ old, s.files.get? (hash raw) = some (some old) → old = raw) :
    getBytes hash (putBytes hash s raw) (hash raw) = .ok raw := by
  refine getBytes_ok.mpr ⟨hkey, ?_, rfl⟩
  rw [get?_putBytes]
  split
  · rfl
  · rename_i hnot
    have hhas : s.has (hash raw) = true := by
      by_contra hno
      exact hnot ⟨rfl, hno⟩
    simp only [has, decide_eq_true_eq] at hhas
    obtain ⟨content, hc⟩ := Dict.mem_keys_iff.mp hhas
    obtain ⟨old, rfl, -⟩ := h _ content hc
    rw [hc, hfree old hc]

/-! ## Stores that only grow -/

/-- The file under a key holds bytes of another hash, or none. -/
def Damaged (hash : β → String) (s : ObjectStore β) (key : String) : Prop :=
  ∃ content, s.files.get? key = some content ∧ ∀ raw, content = some raw → hash raw ≠ key

/-- `t` has the files of `s` as they are, and beside them only files that hash to their key. -/
structure Grown (hash : β → String) (s t : ObjectStore β) : Prop where
  kept : ∀ key content, s.files.get? key = some content → t.files.get? key = some content
  added : ∀ key content, t.files.get? key = some content →
    s.files.get? key = some content ∨ ∃ raw, content = some raw ∧ hash raw = key

theorem Grown.refl (s : ObjectStore β) : Grown hash s s :=
  ⟨fun _ _ h => h, fun _ _ h => .inl h⟩

theorem Grown.trans {s t u : ObjectStore β} (h : Grown hash s t) (h' : Grown hash t u) :
    Grown hash s u := by
  refine ⟨fun key content hs => h'.kept key content (h.kept key content hs), ?_⟩
  intro key content hu
  rcases h'.added key content hu with ht | hnew
  · exact h.added key content ht
  · exact .inr hnew

theorem grown_putBytes (s : ObjectStore β) (raw : β) : Grown hash s (putBytes hash s raw) := by
  constructor
  · intro key content h
    rw [get?_putBytes, if_neg, h]
    rintro ⟨rfl, hnot⟩
    refine hnot ?_
    simp only [has, decide_eq_true_eq]
    exact Dict.mem_keys_iff.mpr ⟨content, h⟩
  · intro key content h
    rw [get?_putBytes] at h
    split at h
    · rename_i hkey
      cases h
      exact .inr ⟨raw, rfl, hkey.1.symm⟩
    · exact .inl h

theorem Grown.verifies {s t : ObjectStore β} (h : Grown hash s t) {key : String}
    (hv : Verifies hash s key) : Verifies hash t key := by
  obtain ⟨raw, hraw⟩ := hv
  obtain ⟨hkey, hget, hhash⟩ := getBytes_ok.mp hraw
  exact ⟨raw, getBytes_ok.mpr ⟨hkey, h.kept key _ hget, hhash⟩⟩

/-- Damage is neither done nor undone by writing. -/
theorem Grown.damaged_iff {s t : ObjectStore β} (h : Grown hash s t) {key : String} :
    Damaged hash t key ↔ Damaged hash s key := by
  constructor
  · rintro ⟨content, hget, hbad⟩
    rcases h.added key content hget with hs | ⟨raw, rfl, hraw⟩
    · exact ⟨content, hs, hbad⟩
    · exact absurd hraw (hbad raw rfl)
  · rintro ⟨content, hget, hbad⟩
    exact ⟨content, h.kept key content hget, hbad⟩

theorem not_verifies_of_damaged {s : ObjectStore β} {key : String} (h : Damaged hash s key) :
    ¬ Verifies hash s key := by
  obtain ⟨content, hget, hbad⟩ := h
  rintro ⟨raw, hraw⟩
  obtain ⟨-, hget', hhash⟩ := getBytes_ok.mp hraw
  rw [hget] at hget'
  exact hbad raw (Option.some.inj hget') hhash

/-- What was put verifies unless a damaged file was in its place. -/
theorem verifies_putBytes {s : ObjectStore β} {raw : β} (hkey : isKey (hash raw))
    (h : ¬ Damaged hash s (hash raw)) : Verifies hash (putBytes hash s raw) (hash raw) := by
  cases hget : s.files.get? (hash raw) with
  | none =>
    refine ⟨raw, getBytes_ok.mpr ⟨hkey, ?_, rfl⟩⟩
    rw [get?_putBytes, if_pos]
    refine ⟨rfl, ?_⟩
    simp only [has, decide_eq_true_eq]
    exact Dict.get?_eq_none_iff.mp hget
  | some content =>
    have hgood : ∃ old, content = some old ∧ hash old = hash raw := by
      by_contra hbad
      push Not at hbad
      exact h ⟨content, hget, hbad⟩
    obtain ⟨old, rfl, hold⟩ := hgood
    exact (grown_putBytes s raw).verifies ⟨old, getBytes_ok.mpr ⟨hkey, hget, hold⟩⟩

end ObjectStore
end Shapeflow
