import Mathlib.Data.List.Nodup
import Mathlib.Data.List.Perm.Basic
import Mathlib.Data.List.Range
import Mathlib.Data.List.Sort
import Mathlib.Data.List.Dedup

set_option autoImplicit false

/-!
# Pairings

An involution of the numbers below a bound that fixes none of them, as the list of
its pairs: every number is in one pair.
-/
namespace Shapeflow.Pairing

structure IsPairing (partner : ℕ → ℕ) (size : ℕ) : Prop where
  lt : ∀ i < size, partner i < size
  back : ∀ i < size, partner (partner i) = i
  ne : ∀ i < size, partner i ≠ i

def pairOf (partner : ℕ → ℕ) (i : ℕ) : ℕ × ℕ := (min i (partner i), max i (partner i))

/-- The order of tuples. -/
def tupleLe (p q : ℕ × ℕ) : Bool := p.1 < q.1 ∨ p.1 = q.1 ∧ p.2 ≤ q.2

/-- A set of pairs in their order. -/
def sortedSet (pairs : List (ℕ × ℕ)) : List (ℕ × ℕ) := pairs.dedup.insertionSort fun p q => tupleLe p q

def pairTypes (partner : ℕ → ℕ) (size : ℕ) : List (ℕ × ℕ) := sortedSet ((List.range size).map (pairOf partner))

def members (pairs : List (ℕ × ℕ)) : List ℕ := pairs.flatMap fun p => [p.1, p.2]

theorem members_cons (p : ℕ × ℕ) (pairs : List (ℕ × ℕ)) : members (p :: pairs) = p.1 :: p.2 :: members pairs := rfl

theorem members_length (pairs : List (ℕ × ℕ)) : (members pairs).length = 2 * pairs.length := by
  induction pairs with
  | nil => rfl
  | cons p pairs ih =>
    rw [members_cons, List.length_cons, List.length_cons, List.length_cons, ih]
    omega

theorem mem_members {i : ℕ} {pairs : List (ℕ × ℕ)} : i ∈ members pairs ↔ ∃ p ∈ pairs, i = p.1 ∨ i = p.2 := by
  simp [members]

theorem sortedSet_nodup (pairs : List (ℕ × ℕ)) : (sortedSet pairs).Nodup :=
  (List.perm_insertionSort _ _).nodup_iff.mpr pairs.nodup_dedup

theorem mem_sortedSet {p : ℕ × ℕ} {pairs : List (ℕ × ℕ)} : p ∈ sortedSet pairs ↔ p ∈ pairs := by
  rw [sortedSet, List.mem_insertionSort, List.mem_dedup]

theorem mem_pairTypes {partner : ℕ → ℕ} {size : ℕ} {p : ℕ × ℕ} :
    p ∈ pairTypes partner size ↔ ∃ i < size, pairOf partner i = p := by
  simp [pairTypes, mem_sortedSet]

section
variable {partner : ℕ → ℕ} {size : ℕ} (h : IsPairing partner size)
include h

theorem pairOf_partner {i : ℕ} (hi : i < size) : pairOf partner (partner i) = pairOf partner i := by
  unfold pairOf
  rw [h.back i hi, Nat.min_comm, Nat.max_comm]

/-- A pair has its two members, each the partner of the other. -/
theorem pair_cases {p : ℕ × ℕ} (hp : p ∈ pairTypes partner size) :
    p.1 < p.2 ∧ p.2 < size ∧ p.2 = partner p.1 ∧ p.1 = partner p.2 := by
  obtain ⟨i, hi, rfl⟩ := mem_pairTypes.mp hp
  have hlt := h.lt i hi
  have hback := h.back i hi
  have hne := h.ne i hi
  unfold pairOf
  rcases Nat.lt_or_gt_of_ne hne with hless | hmore
  · simp only [Nat.min_eq_right (Nat.le_of_lt hless), Nat.max_eq_left (Nat.le_of_lt hless)]
    exact ⟨hless, hi, hback.symm, trivial⟩
  · simp only [Nat.min_eq_left (Nat.le_of_lt hmore), Nat.max_eq_right (Nat.le_of_lt hmore)]
    exact ⟨hmore, hlt, trivial, hback.symm⟩

theorem pairOf_member {p : ℕ × ℕ} (hp : p ∈ pairTypes partner size) {i : ℕ} (hi : i = p.1 ∨ i = p.2) :
    pairOf partner i = p := by
  obtain ⟨hlt, -, hsecond, hfirst⟩ := pair_cases h hp
  have hmin := Nat.min_eq_left (Nat.le_of_lt hlt)
  have hmax := Nat.max_eq_right (Nat.le_of_lt hlt)
  rcases hi with rfl | rfl
  · rw [pairOf, ← hsecond, hmin, hmax]
  · rw [pairOf, ← hfirst, Nat.min_comm, Nat.max_comm, hmin, hmax]

/-- A member of a pair that is listed so often is listed as often. -/
theorem count_members {pairs : List (ℕ × ℕ)} (hpairs : ∀ p ∈ pairs, p ∈ pairTypes partner size) {i : ℕ} :
    (members pairs).count i = pairs.count (pairOf partner i) := by
  induction pairs with
  | nil => rfl
  | cons p pairs ih =>
    obtain ⟨hp, hrest⟩ := List.forall_mem_cons.mp hpairs
    have hlt := (pair_cases h hp).1
    rw [members_cons, List.count_cons, List.count_cons, List.count_cons, ih hrest]
    by_cases hi : i = p.1 ∨ i = p.2
    · rw [pairOf_member h hp hi]
      rcases hi with rfl | rfl
      · simp [Nat.ne_of_gt hlt]
      · simp [Nat.ne_of_lt hlt]
    · have hne : ¬ p = pairOf partner i := by
        intro heq
        apply hi
        rw [heq, pairOf]
        omega
      push Not at hi
      simp [Ne.symm hi.1, Ne.symm hi.2, hne]

theorem members_nodup {pairs : List (ℕ × ℕ)} (hnodup : pairs.Nodup)
    (hpairs : ∀ p ∈ pairs, p ∈ pairTypes partner size) : (members pairs).Nodup := by
  rw [List.nodup_iff_count_le_one]
  intro i
  rw [count_members h hpairs]
  exact List.nodup_iff_count_le_one.mp hnodup _

theorem members_pairTypes : (members (pairTypes partner size)).Perm (List.range size) := by
  refine (List.perm_ext_iff_of_nodup (members_nodup h (sortedSet_nodup _) fun _ => id) List.nodup_range).mpr ?_
  intro i
  rw [mem_members, List.mem_range]
  constructor
  · rintro ⟨p, hp, rfl | rfl⟩
    · exact (pair_cases h hp).1.trans (pair_cases h hp).2.1
    · exact (pair_cases h hp).2.1
  · intro hi
    refine ⟨pairOf partner i, mem_pairTypes.mpr ⟨i, hi, rfl⟩, ?_⟩
    simp only [pairOf]
    omega

theorem two_mul_pairTypes : 2 * (pairTypes partner size).length = size := by
  rw [← members_length, (members_pairTypes h).length_eq, List.length_range]

end
end Shapeflow.Pairing
