import Mathlib.Data.String.Basic
import Shapeflow.Fallible
import Shapeflow.MerkleTree
import Shapeflow.PyJson
import Shapeflow.SortedLists

set_option autoImplicit false

/-!
# The Merkle root of a set of leaf digests

`merkle_root` sorts the leaf digests and joins them level by level. Its root
binds the leaves exactly where the two trees, each odd level completed with its
last node, differ in more than leaves that are the digest of a node.
-/
namespace Shapeflow.Hashing
open Py (hexDigit hexVal hexVal_hexDigit)
open Merkle

/-- A SHA-256 value. -/
abbrev Digest := {b : List UInt8 // b.length = 32}

inductive ValueError where
  | nonHexadecimal
  deriving DecidableEq, Repr

/-! ## Hexadecimal text -/

/-- `bytes.hex` -/
def hexText (bytes : List UInt8) : String :=
  String.ofList (bytes.flatMap fun b => [hexDigit (b.toNat / 16), hexDigit (b.toNat % 16)])

def isBlank (c : Char) : Bool := c ∈ [' ', '\t', '\n', '\r', '\x0b', '\x0c']

/-- `bytes.fromhex`: blanks may stand between two bytes. -/
def bytesFromHex : List Char → Except ValueError (List UInt8)
  | [] => .ok []
  | [c] => if isBlank c then .ok [] else .error .nonHexadecimal
  | c :: d :: rest =>
    if isBlank c then bytesFromHex (d :: rest)
    else match hexVal c, hexVal d with
      | some high, some low => do
        let bytes ← bytesFromHex rest
        .ok (UInt8.ofNat (16 * high + low) :: bytes)
      | _, _ => .error .nonHexadecimal

theorem not_blank_hexDigit : ∀ n < 16, isBlank (hexDigit n) = false := by decide

theorem bytesFromHex_hexText (bytes : List UInt8) : bytesFromHex (hexText bytes).toList = .ok bytes := by
  rw [hexText, String.toList_ofList]
  induction bytes with
  | nil => rfl
  | cons b bytes ih =>
    have hb : b.toNat < 256 := b.toNat_lt
    have hhigh : b.toNat / 16 < 16 := by omega
    have hlow : b.toNat % 16 < 16 := by omega
    have hbyte : UInt8.ofNat (16 * (b.toNat / 16) + b.toNat % 16) = b := by
      rw [Nat.div_add_mod, UInt8.ofNat_toNat]
    rw [List.flatMap_cons, List.cons_append, List.cons_append, List.nil_append, bytesFromHex,
      not_blank_hexDigit _ hhigh, hexVal_hexDigit _ hhigh, hexVal_hexDigit _ hlow, ih]
    simp only [Bool.false_eq_true, if_false, Fallible.ok_bind, hbyte]

theorem hexText_injective : Function.Injective hexText := fun a b h => by
  have ha := bytesFromHex_hexText a
  rw [h, bytesFromHex_hexText b, Except.ok.injEq] at ha
  exact ha.symm

/-! ## The root -/

variable (sha256 : List UInt8 → Digest)

def sha256Hex (data : List UInt8) : String := hexText (sha256 data).val

/-- Joining two nodes: `bytes.fromhex(sha256_hex(left + right))`. -/
def joined (left right : List UInt8) : List UInt8 := (sha256 (left ++ right)).val

def merkleRoot (leaves : List String) : Except ValueError String :=
  if leaves = [] then .ok (sha256Hex sha256 [])
  else do
    let level ← (leaves.insertionSort (· ≤ ·)).mapM fun leaf => bytesFromHex leaf.toList
    .ok (hexText ((climb (joined sha256) level).getD []))

/-! ## The tree of the sorted leaves -/

def sortedDigests (digests : List Digest) : List Digest :=
  digests.insertionSort fun a b => hexText a.val ≤ hexText b.val

/-- What is hashed for an empty list, and for two nodes joined. -/
def hashInput : Option (Digest × Digest) → List UInt8
  | none => []
  | some (left, right) => left.val ++ right.val

def nodeHash (x : Option (Digest × Digest)) : Digest := sha256 (hashInput x)

def merkleTree (digests : List Digest) : HashTree Digest := treeOf (sortedDigests digests)

/-- The inputs `merkle_root` hashes. -/
def hashedInputs (digests : List Digest) : List (List UInt8) :=
  ((merkleTree digests).hashed (nodeHash sha256)).map hashInput

theorem hashInput_injective : Function.Injective hashInput := by
  rintro (_ | ⟨l, r⟩) (_ | ⟨l', r'⟩) h
  · rfl
  · have hlen := congrArg List.length h
    simp [hashInput, l'.2, r'.2] at hlen
  · have hlen := congrArg List.length h
    simp [hashInput, l.2, r.2] at hlen
  · obtain ⟨hl, hr⟩ := List.append_inj h (l.2.trans l'.2.symm)
    rw [Subtype.ext hl, Subtype.ext hr]

variable {sha256}

theorem nodeHash_injOn {l₁ l₂ : List Digest}
    (hcoll : Set.InjOn sha256 {x | x ∈ hashedInputs sha256 l₁ ++ hashedInputs sha256 l₂}) :
    Set.InjOn (nodeHash sha256)
      {x | x ∈ (merkleTree l₁).hashed (nodeHash sha256) ++ (merkleTree l₂).hashed (nodeHash sha256)} := by
  have hmem : ∀ x ∈ (merkleTree l₁).hashed (nodeHash sha256) ++ (merkleTree l₂).hashed (nodeHash sha256),
      hashInput x ∈ hashedInputs sha256 l₁ ++ hashedInputs sha256 l₂ := by
    intro x hx
    rw [hashedInputs, hashedInputs, ← List.map_append]
    exact List.mem_map_of_mem hx
  exact fun x hx y hy h => hashInput_injective (hcoll (hmem x hx) (hmem y hy) h)

theorem sortedDigests_perm (digests : List Digest) : (sortedDigests digests).Perm digests :=
  List.perm_insertionSort _ digests

theorem insertionSort_hex (digests : List Digest) :
    (digests.map fun d => hexText d.val).insertionSort (· ≤ ·) = (sortedDigests digests).map fun d => hexText d.val :=
  (List.map_insertionSort (fun a b : Digest => hexText a.val ≤ hexText b.val) (· ≤ ·)
    (fun d : Digest => hexText d.val) digests fun _ _ _ _ => Iff.rfl).symm

/-- The root of digests is the digest of their tree. -/
theorem merkleRoot_digests (digests : List Digest) :
    merkleRoot sha256 (digests.map fun d => hexText d.val) =
      .ok (hexText ((merkleTree digests).digest (nodeHash sha256)).val) := by
  rw [merkleTree, ← root_eq, root]
  rcases eq_or_ne digests [] with rfl | hne
  · rw [sortedDigests, List.insertionSort_nil, climb]
    rfl
  · have hlevel : ((sortedDigests digests).map fun d => hexText d.val).mapM (fun leaf => bytesFromHex leaf.toList) =
        .ok ((sortedDigests digests).map Subtype.val) := by
      rw [Fallible.mapM_ok, List.map_map, List.map_map]
      exact List.map_congr_left fun d _ => bytesFromHex_hexText d.val
    have hclimb := climb_map (fun left right => nodeHash sha256 (some (left, right))) (joined sha256) Subtype.val
      (fun _ _ => rfl) (sortedDigests digests)
    have hsorted : sortedDigests digests ≠ [] := fun h => hne (List.nil_perm.mp (h ▸ sortedDigests_perm digests))
    obtain ⟨root, hroot⟩ := climb_isSome (fun left right => nodeHash sha256 (some (left, right))) _ hsorted
    rw [merkleRoot, if_neg (mt List.map_eq_nil_iff.mp hne), insertionSort_hex, hlevel, Fallible.ok_bind, hclimb, hroot]
    rfl

theorem merkleRoot_eq_iff {l₁ l₂ : List Digest}
    (hcoll : Set.InjOn sha256 {x | x ∈ hashedInputs sha256 l₁ ++ hashedInputs sha256 l₂}) :
    merkleRoot sha256 (l₁.map fun d => hexText d.val) = merkleRoot sha256 (l₂.map fun d => hexText d.val) ↔
      (merkleTree l₁).Same (nodeHash sha256) (merkleTree l₂) := by
  rw [merkleRoot_digests, merkleRoot_digests, Except.ok.injEq, hexText_injective.eq_iff, Subtype.val_inj,
    HashTree.digest_eq_iff (nodeHash_injOn hcoll)]

theorem sortedDigests_eq_iff (l₁ l₂ : List Digest) : sortedDigests l₁ = sortedDigests l₂ ↔ l₁.Perm l₂ := by
  refine ⟨fun h => (sortedDigests_perm l₁).symm.trans (h ▸ sortedDigests_perm l₂), fun h => ?_⟩
  have hmap : (sortedDigests l₁).map (fun d => hexText d.val) = (sortedDigests l₂).map fun d => hexText d.val := by
    rw [← insertionSort_hex, ← insertionSort_hex]
    exact SortedLists.insertionSort_eq_of_perm _ (h.map _)
  exact List.map_injective_iff.mpr (fun a b hab => Subtype.ext (hexText_injective hab)) hmap

theorem same_iff_padded {l₁ l₂ : List Digest} (h₁ : ∀ d ∈ l₁, ∀ x ∈ hashedInputs sha256 l₂, sha256 x ≠ d)
    (h₂ : ∀ d ∈ l₂, ∀ x ∈ hashedInputs sha256 l₁, sha256 x ≠ d) :
    (merkleTree l₁).Same (nodeHash sha256) (merkleTree l₂) ↔
      padded (sortedDigests l₁) = padded (sortedDigests l₂) := by
  have hleaf : ∀ {l : List Digest}, ∀ d ∈ (merkleTree l).leaves, d ∈ l := fun {l} d hd =>
    (sortedDigests_perm l).subset (mem_padded (leaves_treeOf (sortedDigests l) ▸ hd))
  refine Iff.trans (HashTree.same_iff_eq (fun d hd x hx => ?_) fun d hd x hx => ?_) (treeOf_eq_iff _ _)
  · exact h₁ d (hleaf d hd) _ (List.mem_map_of_mem hx)
  · exact h₂ d (hleaf d hd) _ (List.mem_map_of_mem hx)

/-- Different leaves have different roots unless their trees agree up to a leaf that stands for a node; among leaves
none of which is a hash of the other tree, unless their padded sequences agree. -/
theorem merkleRoot_binds_iff (sha256 : List UInt8 → Digest) (l₁ l₂ : List Digest)
    (hcoll : Set.InjOn sha256 {x | x ∈ hashedInputs sha256 l₁ ++ hashedInputs sha256 l₂}) :
    ((¬ l₁.Perm l₂ → merkleRoot sha256 (l₁.map fun d => hexText d.val) ≠
        merkleRoot sha256 (l₂.map fun d => hexText d.val)) ↔
      l₁.Perm l₂ ∨ ¬ (merkleTree l₁).Same (nodeHash sha256) (merkleTree l₂)) ∧
    ((∀ d ∈ l₁, ∀ x ∈ hashedInputs sha256 l₂, sha256 x ≠ d) → (∀ d ∈ l₂, ∀ x ∈ hashedInputs sha256 l₁, sha256 x ≠ d) →
      ((¬ l₁.Perm l₂ → merkleRoot sha256 (l₁.map fun d => hexText d.val) ≠
          merkleRoot sha256 (l₂.map fun d => hexText d.val)) ↔
        l₁.Perm l₂ ∨ padded (sortedDigests l₁) ≠ padded (sortedDigests l₂))) := by
  have hexact : (¬ l₁.Perm l₂ → merkleRoot sha256 (l₁.map fun d => hexText d.val) ≠
        merkleRoot sha256 (l₂.map fun d => hexText d.val)) ↔
      l₁.Perm l₂ ∨ ¬ (merkleTree l₁).Same (nodeHash sha256) (merkleTree l₂) := by
    rw [Ne, merkleRoot_eq_iff hcoll, or_iff_not_imp_left]
  refine ⟨hexact, fun h₁ h₂ => ?_⟩
  rw [hexact, same_iff_padded h₁ h₂]

/-- Leaf lists of one length have different roots when none of them is the digest of a node. -/
theorem merkleRoot_binds_of_length {l₁ l₂ : List Digest}
    (hcoll : Set.InjOn sha256 {x | x ∈ hashedInputs sha256 l₁ ++ hashedInputs sha256 l₂})
    (h₁ : ∀ d ∈ l₁, ∀ x ∈ hashedInputs sha256 l₂, sha256 x ≠ d)
    (h₂ : ∀ d ∈ l₂, ∀ x ∈ hashedInputs sha256 l₁, sha256 x ≠ d) (hlen : l₁.length = l₂.length) :
    merkleRoot sha256 (l₁.map fun d => hexText d.val) = merkleRoot sha256 (l₂.map fun d => hexText d.val) ↔
      l₁.Perm l₂ := by
  have hsorted : (sortedDigests l₁).length = (sortedDigests l₂).length := by
    rw [(sortedDigests_perm l₁).length_eq, (sortedDigests_perm l₂).length_eq, hlen]
  rw [merkleRoot_eq_iff hcoll, same_iff_padded h₁ h₂, ← sortedDigests_eq_iff]
  exact ⟨padded_injective hsorted, congrArg padded⟩

/-! ## A last leaf repeated -/

/-- SHA-256 of the texts `a`, `b` and `c`, and of the nodes over them. -/
def leafA : Digest :=
  ⟨[202, 151, 129, 18, 202, 27, 189, 202, 250, 194, 49, 179, 154, 35, 220, 77, 167, 134, 239, 248, 20, 124,
    78, 114, 185, 128, 119, 133, 175, 238, 72, 187], rfl⟩

def leafB : Digest :=
  ⟨[62, 35, 232, 22, 0, 57, 89, 74, 51, 137, 79, 101, 100, 225, 177, 52, 139, 189, 122, 0, 136, 212,
    44, 74, 203, 115, 238, 174, 213, 156, 0, 157], rfl⟩

def leafC : Digest :=
  ⟨[46, 125, 44, 3, 169, 80, 122, 226, 101, 236, 245, 181, 53, 104, 133, 165, 51, 147, 162, 2, 157, 36,
    19, 148, 153, 114, 101, 161, 162, 90, 239, 198], rfl⟩

def nodeCB : Digest :=
  ⟨[116, 155, 124, 162, 165, 65, 17, 0, 94, 143, 213, 88, 128, 79, 247, 131, 51, 209, 75, 50, 222, 155,
    177, 94, 251, 90, 178, 130, 196, 218, 220, 129], rfl⟩

def nodeAA : Digest :=
  ⟨[37, 26, 38, 34, 145, 184, 124, 179, 201, 58, 110, 215, 24, 101, 218, 31, 44, 9, 12, 61, 1, 150,
    102, 26, 143, 74, 112, 91, 101, 131, 111, 113], rfl⟩

def topNode : Digest :=
  ⟨[202, 77, 111, 67, 86, 58, 53, 110, 205, 162, 231, 170, 132, 140, 23, 58, 27, 118, 32, 159, 160, 156,
    125, 171, 39, 182, 212, 177, 226, 115, 50, 225], rfl⟩

def sha256Sample (data : List UInt8) : Digest :=
  if data = [97] then leafA
  else if data = [98] then leafB
  else if data = [99] then leafC
  else if data = leafC.val ++ leafB.val then nodeCB
  else if data = leafA.val ++ leafA.val then nodeAA
  else topNode

theorem injOn_of_list {xs : List (List UInt8)} (h : ∀ x ∈ xs, ∀ y ∈ xs, sha256Sample x = sha256Sample y → x = y) :
    Set.InjOn sha256Sample {x | x ∈ xs} :=
  fun x hx y hy => h x hx y hy

/-- Two digests and a repeated third have different roots. -/
theorem merkleRoot_binds_pairs : merkleRoot sha256Sample ([leafC, leafB].map fun d => hexText d.val) ≠
    merkleRoot sha256Sample ([leafA, leafA].map fun d => hexText d.val) := by
  have hsorted₁ : sortedDigests [leafC, leafB] = [leafC, leafB] := by decide +kernel
  have hsorted₂ : sortedDigests [leafA, leafA] = [leafA, leafA] := by decide +kernel
  have hinputs₁ : hashedInputs sha256Sample [leafC, leafB] = [leafC.val ++ leafB.val] := by
    simp [hashedInputs, merkleTree, hsorted₁, treeOf, climb, joinPairs, HashTree.hashed, hashInput, HashTree.digest]
  have hinputs₂ : hashedInputs sha256Sample [leafA, leafA] = [leafA.val ++ leafA.val] := by
    simp [hashedInputs, merkleTree, hsorted₂, treeOf, climb, joinPairs, HashTree.hashed, hashInput, HashTree.digest]
  have hpadded : padded (sortedDigests [leafC, leafB]) ≠ padded (sortedDigests [leafA, leafA]) := by
    rw [hsorted₁, hsorted₂]
    simp only [padded, List.map_cons, List.map_nil, climb, joinPairs]
    decide +kernel
  refine ((merkleRoot_binds_iff sha256Sample [leafC, leafB] [leafA, leafA] ?_).2 ?_ ?_).mpr (.inr hpadded) ?_
  · rw [hinputs₁, hinputs₂]
    exact injOn_of_list (by decide +kernel)
  · rw [hinputs₂]
    decide +kernel
  · rw [hinputs₁]
    decide +kernel
  · decide +kernel

theorem merkleTree_three : merkleTree [leafA, leafB, leafC] =
    .node (.node (.leaf leafC) (.leaf leafB)) (.node (.leaf leafA) (.leaf leafA)) := by
  have hsorted : sortedDigests [leafA, leafB, leafC] = [leafC, leafB, leafA] := by decide +kernel
  simp [merkleTree, hsorted, treeOf, climb, joinPairs]

theorem merkleTree_four : merkleTree [leafA, leafB, leafC, leafA] = merkleTree [leafA, leafB, leafC] := by
  have hsorted : sortedDigests [leafA, leafB, leafC, leafA] = [leafC, leafB, leafA, leafA] := by decide +kernel
  rw [merkleTree_three]
  simp [merkleTree, hsorted, treeOf, climb, joinPairs]

theorem hashedInputs_three : hashedInputs sha256Sample [leafA, leafB, leafC] =
    [nodeCB.val ++ nodeAA.val, leafC.val ++ leafB.val, leafA.val ++ leafA.val] := by
  rw [hashedInputs, merkleTree_three]
  decide +kernel

theorem hashedInputs_four : hashedInputs sha256Sample [leafA, leafB, leafC, leafA] =
    [nodeCB.val ++ nodeAA.val, leafC.val ++ leafB.val, leafA.val ++ leafA.val] := by
  rw [← hashedInputs_three, hashedInputs, hashedInputs, merkleTree_four]

/-- The digests of `a`, `b` and `c`, and the same with the largest of them once more. -/
theorem not_merkleRoot_binds : ¬ ∀ (sha256 : List UInt8 → Digest) (contents₁ contents₂ : List (List UInt8)),
    Set.InjOn sha256 {x | x ∈ contents₁ ++ contents₂ ++
      (hashedInputs sha256 (contents₁.map sha256) ++ hashedInputs sha256 (contents₂.map sha256))} →
    ¬ (contents₁.map sha256).Perm (contents₂.map sha256) →
    merkleRoot sha256 ((contents₁.map sha256).map fun d => hexText d.val) ≠
      merkleRoot sha256 ((contents₂.map sha256).map fun d => hexText d.val) := by
  intro hclaim
  have h₁ : [[97], [98], [99]].map sha256Sample = [leafA, leafB, leafC] := by decide +kernel
  have h₂ : [[97], [98], [99], [97]].map sha256Sample = [leafA, leafB, leafC, leafA] := by decide +kernel
  refine hclaim sha256Sample [[97], [98], [99]] [[97], [98], [99], [97]] ?_ (fun hperm => ?_) ?_
  · rw [h₁, h₂, hashedInputs_three, hashedInputs_four]
    exact injOn_of_list (by decide +kernel)
  · simpa using hperm.length_eq
  · rw [h₁, h₂, merkleRoot_digests, merkleRoot_digests, merkleTree_four]

end Shapeflow.Hashing
