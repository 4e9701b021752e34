import Mathlib.Algebra.GroupWithZero.Nat
import Mathlib.Data.List.Infix
import Mathlib.Data.Set.Function
import Mathlib.Tactic.Tauto

set_option autoImplicit false

/-!
# Binary hash trees

A level is halved by joining neighbours until one node is left; a last node
without a neighbour is joined with itself. The tree so built determines the
digest, and, where no two of the hashed inputs collide, the digest determines
the tree up to leaves that stand for a node.
-/
namespace Shapeflow.Merkle

variable {α β δ : Type}

/-! ## Halving a level -/

def joinPairs (join : α → α → α) : List α → List α
  | left :: right :: rest => join left right :: joinPairs join rest
  | [left] => [join left left]
  | [] => []

theorem length_joinPairs (join : α → α → α) (level : List α) :
    (joinPairs join level).length = (level.length + 1) / 2 := by
  induction level using joinPairs.induct with
  | case1 left right rest ih => simp only [joinPairs, List.length_cons, ih]; omega
  | case2 left => simp [joinPairs]
  | case3 => simp [joinPairs]

/-- The node left when no level has two. -/
def climb (join : α → α → α) : List α → Option α
  | [] => none
  | [root] => some root
  | left :: right :: rest => climb join (joinPairs join (left :: right :: rest))
termination_by level => level.length
decreasing_by simp only [length_joinPairs, List.length_cons]; omega

theorem map_joinPairs {join : α → α → α} {join' : β → β → β} {f : α → β}
    (hf : ∀ a b, f (join a b) = join' (f a) (f b)) (level : List α) :
    (joinPairs join level).map f = joinPairs join' (level.map f) := by
  induction level using joinPairs.induct with
  | case1 left right rest ih => simp [joinPairs, hf, ih]
  | case2 left => simp [joinPairs, hf]
  | case3 => rfl

theorem climb_map (join : α → α → α) (join' : β → β → β) (f : α → β)
    (hf : ∀ a b, f (join a b) = join' (f a) (f b)) (level : List α) :
    climb join' (level.map f) = (climb join level).map f := by
  induction level using climb.induct join with
  | case1 => simp [climb]
  | case2 root => simp [climb]
  | case3 left right rest ih =>
    rw [climb, ← ih, map_joinPairs hf, List.map_cons, List.map_cons, climb]

theorem climb_isSome (join : α → α → α) (level : List α) (h : level ≠ []) : ∃ root, climb join level = some root := by
  induction level using climb.induct join with
  | case1 => exact absurd rfl h
  | case2 root => exact ⟨root, by simp [climb]⟩
  | case3 left right rest ih =>
    rw [climb]
    exact ih (by simp [joinPairs])

theorem joinPairs_induction {join : α → α → α} {P : ℕ → α → Prop}
    (hjoin : ∀ n a b, P n a → P n b → P (n + 1) (join a b)) {level : List α} {n : ℕ} (h : ∀ a ∈ level, P n a) :
    ∀ a ∈ joinPairs join level, P (n + 1) a := by
  induction level using joinPairs.induct with
  | case1 left right rest ih =>
    simp only [List.forall_mem_cons] at h
    simp only [joinPairs, List.forall_mem_cons]
    exact ⟨hjoin n _ _ h.1 h.2.1, ih h.2.2⟩
  | case2 left =>
    have hleft := h left (by simp)
    simpa [joinPairs] using hjoin n _ _ hleft hleft
  | case3 => simp [joinPairs]

/-- What the nodes of a level have and a join keeps, the root has. -/
theorem climb_induction (join : α → α → α) (P : ℕ → α → Prop)
    (hjoin : ∀ n a b, P n a → P n b → P (n + 1) (join a b)) {level : List α} {n : ℕ} (h : ∀ a ∈ level, P n a)
    {root : α} (hroot : climb join level = some root) : ∃ m, P m root := by
  induction level using climb.induct join generalizing n with
  | case1 => simp [climb] at hroot
  | case2 a =>
    obtain rfl : a = root := by simpa [climb] using hroot
    exact ⟨n, h a (by simp)⟩
  | case3 left right rest ih =>
    rw [climb] at hroot
    exact ih (joinPairs_induction hjoin h) hroot

/-! ## Trees -/

inductive HashTree (δ : Type) where
  | empty
  | leaf (digest : δ)
  | node (left right : HashTree δ)

namespace HashTree

/-- `hash none` is the digest of nothing, `hash (some (l, r))` that of two digests joined. -/
def digest (hash : Option (δ × δ) → δ) : HashTree δ → δ
  | empty => hash none
  | leaf d => d
  | node left right => hash (some (left.digest hash, right.digest hash))

/-- The inputs hashed on the way to the root. -/
def hashed (hash : Option (δ × δ) → δ) : HashTree δ → List (Option (δ × δ))
  | empty => [none]
  | leaf _ => []
  | node left right => some (left.digest hash, right.digest hash) :: (left.hashed hash ++ right.hashed hash)

def leaves : HashTree δ → List δ
  | empty => []
  | leaf d => [d]
  | node left right => left.leaves ++ right.leaves

/-- One tree, up to leaves that stand for the node of the other tree whose digest they are. -/
def Same (hash : Option (δ × δ) → δ) : HashTree δ → HashTree δ → Prop
  | leaf d, t => d = t.digest hash
  | s, leaf d => s.digest hash = d
  | empty, empty => True
  | node left right, node left' right' => left.Same hash left' ∧ right.Same hash right'
  | _, _ => False

theorem digest_eq_iff {hash : Option (δ × δ) → δ} {s t : HashTree δ}
    (hcoll : Set.InjOn hash {x | x ∈ s.hashed hash ++ t.hashed hash}) :
    s.digest hash = t.digest hash ↔ s.Same hash t := by
  induction s generalizing t with
  | empty =>
    cases t with
    | empty => simp [Same]
    | leaf d => simp [Same, digest]
    | node left right =>
      simp only [Same, iff_false]
      intro heq
      exact Option.some_ne_none _ (hcoll (by simp [hashed]) (by simp [hashed]) heq).symm
  | leaf d => cases t <;> simp [Same, digest]
  | node left right ihl ihr =>
    cases t with
    | empty =>
      simp only [Same, iff_false]
      intro heq
      exact Option.some_ne_none _ (hcoll (by simp [hashed]) (by simp [hashed]) heq)
    | leaf d => simp [Same, digest]
    | node left' right' =>
      have hl : Set.InjOn hash {x | x ∈ left.hashed hash ++ left'.hashed hash} :=
        hcoll.mono fun x hx => by simp [hashed] at hx ⊢; tauto
      have hr : Set.InjOn hash {x | x ∈ right.hashed hash ++ right'.hashed hash} :=
        hcoll.mono fun x hx => by simp [hashed] at hx ⊢; tauto
      rw [Same, ← ihl hl, ← ihr hr]
      constructor
      · intro heq
        have hpair := hcoll (by simp [hashed]) (by simp [hashed]) heq
        simpa using hpair
      · rintro ⟨hleft, hright⟩
        simp only [digest, hleft, hright]

/-- Where no leaf is the digest of a node of the other tree, only a tree itself is the same. -/
theorem same_iff_eq {hash : Option (δ × δ) → δ} {s t : HashTree δ} (hst : ∀ d ∈ s.leaves, ∀ x ∈ t.hashed hash, hash x ≠ d)
    (hts : ∀ d ∈ t.leaves, ∀ x ∈ s.hashed hash, hash x ≠ d) : s.Same hash t ↔ s = t := by
  induction s generalizing t with
  | empty =>
    cases t with
    | empty => simp [Same]
    | leaf d => simpa [Same, digest] using hts d (by simp [leaves]) none (by simp [hashed])
    | node left right => simp [Same]
  | leaf d =>
    cases t with
    | empty => simpa [Same, digest, eq_comm] using hst d (by simp [leaves]) none (by simp [hashed])
    | leaf d' => simp [Same, digest]
    | node left right =>
      simpa [Same, digest, eq_comm] using hst d (by simp [leaves]) _ (List.mem_cons_self ..)
  | node left right ihl ihr =>
    cases t with
    | empty => simp [Same]
    | leaf d => simpa [Same, digest] using hts d (by simp [leaves]) _ (List.mem_cons_self ..)
    | node left' right' =>
      have hl := ihl (t := left') (fun d hd x hx => hst d (by simp [leaves, hd]) x (by simp [hashed, hx]))
        (fun d hd x hx => hts d (by simp [leaves, hd]) x (by simp [hashed, hx]))
      have hr := ihr (t := right') (fun d hd x hx => hst d (by simp [leaves, hd]) x (by simp [hashed, hx]))
        (fun d hd x hx => hts d (by simp [leaves, hd]) x (by simp [hashed, hx]))
      rw [Same, hl, hr, node.injEq]

/-! ## Perfect trees -/

def Perfect : ℕ → HashTree δ → Prop
  | 0, leaf _ => True
  | n + 1, node left right => left.Perfect n ∧ right.Perfect n
  | _, _ => False

theorem Perfect.length_leaves {n : ℕ} {t : HashTree δ} (h : Perfect n t) : t.leaves.length = 2 ^ n := by
  induction n generalizing t with
  | zero =>
    cases t with
    | leaf d => rfl
    | empty | node left right => exact h.elim
  | succ n ih =>
    cases t with
    | node left right =>
      rw [leaves, List.length_append, ih h.1, ih h.2, Nat.pow_succ]
      omega
    | empty | leaf d => exact h.elim

theorem Perfect.eq_of_leaves {n : ℕ} {s t : HashTree δ} (hs : Perfect n s) (ht : Perfect n t) (h : s.leaves = t.leaves) :
    s = t := by
  induction n generalizing s t with
  | zero =>
    cases s with
    | leaf d =>
      cases t with
      | leaf d' => simpa [leaves] using h
      | empty | node left right => exact ht.elim
    | empty | node left right => exact hs.elim
  | succ n ih =>
    cases s with
    | node left right =>
      cases t with
      | node left' right' =>
        have hlen : left.leaves.length = left'.leaves.length := hs.1.length_leaves.trans ht.1.length_leaves.symm
        obtain ⟨hl, hr⟩ := List.append_inj h hlen
        rw [ih hs.1 ht.1 hl, ih hs.2 ht.2 hr]
      | empty | leaf d => exact ht.elim
    | empty | leaf d => exact hs.elim

end HashTree

/-! ## From a list of leaves -/

def treeOf (digests : List δ) : HashTree δ := (climb .node (digests.map .leaf)).getD .empty

/-- The leaves as the tree has them, the last node of an odd level twice. -/
def padded (digests : List δ) : List δ := (climb (· ++ ·) (digests.map ([·]))).getD []

def root (hash : Option (δ × δ) → δ) (digests : List δ) : δ :=
  (climb (fun left right => hash (some (left, right))) digests).getD (hash none)

theorem root_eq (hash : Option (δ × δ) → δ) (digests : List δ) : root hash digests = (treeOf digests).digest hash := by
  have h := climb_map HashTree.node (fun left right => hash (some (left, right))) (HashTree.digest hash)
    (fun _ _ => rfl) (digests.map HashTree.leaf)
  have hleaves : (digests.map HashTree.leaf).map (HashTree.digest hash) = digests := by
    rw [List.map_map]; exact List.map_id digests
  rw [hleaves] at h
  rw [root, treeOf, h]
  cases climb HashTree.node (digests.map HashTree.leaf) with
  | none => rfl
  | some t => rfl

theorem leaves_treeOf (digests : List δ) : (treeOf digests).leaves = padded digests := by
  have h := climb_map HashTree.node (· ++ ·) HashTree.leaves (fun _ _ => rfl) (digests.map HashTree.leaf)
  have hleaves : (digests.map HashTree.leaf).map HashTree.leaves = digests.map ([·]) := List.map_map
  rw [hleaves] at h
  rw [padded, treeOf, h]
  cases climb HashTree.node (digests.map HashTree.leaf) with
  | none => rfl
  | some t => rfl

theorem treeOf_perfect {digests : List δ} (h : digests ≠ []) : ∃ n, (treeOf digests).Perfect n := by
  obtain ⟨t, ht⟩ := climb_isSome HashTree.node (digests.map HashTree.leaf) (by simpa using h)
  rw [treeOf, ht]
  refine climb_induction HashTree.node HashTree.Perfect (fun n a b ha hb => ⟨ha, hb⟩) (n := 0) ?_ ht
  intro a ha
  obtain ⟨d, -, rfl⟩ := List.mem_map.mp ha
  trivial

theorem mem_padded {digests : List δ} {d : δ} (hd : d ∈ padded digests) : d ∈ digests := by
  cases hroot : climb (· ++ ·) (digests.map ([·])) with
  | none => simp [padded, hroot] at hd
  | some root =>
    have hkept := climb_induction (· ++ ·) (fun _ a => ∀ d ∈ a, d ∈ digests)
      (fun _ a b ha hb d hd => (List.mem_append.mp hd).elim (ha d) (hb d)) (n := 0) (fun a ha => ?_) hroot
    · obtain ⟨-, hmem⟩ := hkept
      exact hmem d (by simpa [padded, hroot] using hd)
    · obtain ⟨e, he, rfl⟩ := List.mem_map.mp ha
      simpa using he

theorem prefix_joinPairs (level : List (List δ)) : level.flatten <+: (joinPairs (· ++ ·) level).flatten := by
  induction level using joinPairs.induct with
  | case1 left right rest ih =>
    rw [joinPairs, List.flatten_cons, List.flatten_cons, List.flatten_cons, List.append_assoc,
      List.prefix_append_right_inj, List.prefix_append_right_inj]
    exact ih
  | case2 left => simp [joinPairs]
  | case3 => simp [joinPairs]

theorem prefix_climb {level : List (List δ)} {root : List δ} (hroot : climb (· ++ ·) level = some root) :
    level.flatten <+: root := by
  induction level using climb.induct fun a b : List δ => a ++ b with
  | case1 => simp [climb] at hroot
  | case2 a =>
    obtain rfl : a = root := by simpa [climb] using hroot
    simp
  | case3 left right rest ih =>
    rw [climb] at hroot
    exact (prefix_joinPairs _).trans (ih hroot)

theorem prefix_padded (digests : List δ) : digests <+: padded digests := by
  rcases digests with _ | ⟨d, ds⟩
  · exact List.nil_prefix
  · obtain ⟨root, hroot⟩ := climb_isSome (· ++ ·) ((d :: ds).map ([·])) (by simp)
    have h := prefix_climb hroot
    rw [← List.flatMap_def, List.flatMap_singleton'] at h
    rw [padded, hroot]
    exact h

theorem padded_ne_nil {digests : List δ} (h : digests ≠ []) : padded digests ≠ [] :=
  fun hnil => h (List.prefix_nil.mp (hnil ▸ prefix_padded digests))

theorem treeOf_eq_iff (l₁ l₂ : List δ) : treeOf l₁ = treeOf l₂ ↔ padded l₁ = padded l₂ := by
  refine ⟨fun h => by rw [← leaves_treeOf, h, leaves_treeOf], fun h => ?_⟩
  rcases eq_or_ne l₁ [] with rfl | h₁
  · rcases eq_or_ne l₂ [] with rfl | h₂
    · rfl
    · exact absurd (h.symm.trans (by simp [padded, climb])) (padded_ne_nil h₂)
  · rcases eq_or_ne l₂ [] with rfl | h₂
    · exact absurd (h.trans (by simp [padded, climb])) (padded_ne_nil h₁)
    · obtain ⟨n, hn⟩ := treeOf_perfect h₁
      obtain ⟨m, hm⟩ := treeOf_perfect h₂
      have hleaves : (treeOf l₁).leaves = (treeOf l₂).leaves := by rw [leaves_treeOf, leaves_treeOf, h]
      have hpow : 2 ^ n = 2 ^ m := by rw [← hn.length_leaves, ← hm.length_leaves, hleaves]
      obtain rfl := Nat.pow_right_injective le_rfl hpow
      exact hn.eq_of_leaves hm hleaves

/-- Padding cannot confuse lists of one length. -/
theorem padded_injective {l₁ l₂ : List δ} (hlen : l₁.length = l₂.length) (h : padded l₁ = padded l₂) : l₁ = l₂ :=
  (List.prefix_of_prefix_length_le (h ▸ prefix_padded l₁) (prefix_padded l₂) hlen.le).eq_of_length hlen

end Shapeflow.Merkle
