import Mathlib.Algebra.BigOperators.Intervals
import Mathlib.Algebra.Order.Ring.Int
import Mathlib.Data.Int.ModEq
import Shapeflow.WilliamsBalance

set_option autoImplicit false

/-!
# Safe cyclic windows

Written without reduction, the zig-zag steps up by `1, 3, 5, ...` and down by
`2, 4, 6, ...` in turn. For an odd number of arms every odd difference occurs at two
places of a row, and the rows that share a directed pair there are half the arms
apart. A window of consecutive rows is shorter than that.
-/
namespace Shapeflow.Randomization

/-! ## The zig-zag without reduction -/

/-- Up at the odd places, down at the even ones. -/
def zigzag (j : ℕ) : ℤ := if j % 2 = 1 then ((j : ℤ) + 1) / 2 else -((j : ℤ) / 2)

/-- The arm at the place `j` of the row `i`. -/
def entry (n i j : ℕ) : ℕ := ((zigzag j + i) % n).toNat

theorem emod_eq_iff_dvd {a b m : ℤ} : a % m = b % m ↔ m ∣ a - b :=
  Int.emod_eq_emod_iff_emod_sub_eq_zero.trans Int.dvd_iff_emod_eq_zero.symm

section
variable {n : ℕ} (hn : 0 < n)
include hn

theorem entry_cast (i j : ℕ) : (entry n i j : ℤ) = (zigzag j + i) % n :=
  Int.toNat_of_nonneg (Int.emod_nonneg _ (by omega))

theorem entry_lt (i j : ℕ) : entry n i j < n := by
  have h := Int.emod_lt_of_pos (zigzag j + i) (show (0 : ℤ) < n by omega)
  rw [← entry_cast hn] at h
  omega

theorem entry_eq_iff {i j x : ℕ} (hx : x < n) : entry n i j = x ↔ (n : ℤ) ∣ zigzag j + i - x := by
  rw [← Int.natCast_inj, entry_cast hn, ← emod_eq_iff_dvd, Int.emod_eq_of_lt (a := x) (by omega) (by omega)]

theorem entry_eq_entry {i i' j j' : ℕ} :
    entry n i j = entry n i' j' ↔ (n : ℤ) ∣ zigzag j + i - (zigzag j' + i') := by
  rw [← Int.natCast_inj, entry_cast hn, entry_cast hn, emod_eq_iff_dvd]

theorem translate_eq (i : ℕ) : translate n (williamsFirstRow n) i = (List.range n).map (entry n i) := by
  apply List.ext_getElem?
  intro j
  by_cases hj : j < n
  · obtain ⟨x, hx, hval⟩ := williamsFirstRow_get hj
    rw [translate_get hx, List.getElem?_map, List.getElem?_range hj, Option.map_some, Option.some.injEq]
    have hlt : (x + i) % n < n := Nat.mod_lt _ hn
    rw [eq_comm, entry_eq_iff hn hlt, ← emod_eq_iff_dvd, Int.natCast_emod, Int.emod_emod_of_dvd _ (dvd_refl _),
      emod_eq_iff_dvd, zigzag]
    split at hval
    · rw [if_pos ‹_›, show ((j : ℤ) + 1) / 2 + i - ((x + i : ℕ) : ℤ) = 0 by omega]
      exact dvd_zero _
    · rw [if_neg ‹_›]
      split at hval
      · rw [show -((j : ℤ) / 2) + i - ((x + i : ℕ) : ℤ) = 0 by omega]
        exact dvd_zero _
      · rw [show -((j : ℤ) / 2) + i - ((x + i : ℕ) : ℤ) = -n by omega]
        exact (dvd_neg).mpr (dvd_refl _)
  · rw [List.getElem?_eq_none (by rw [translate_length, williamsFirstRow_length hn]; omega),
      List.getElem?_eq_none (by simp; omega)]

end

/-! ## Adjacent pairs -/

/-- The directed pairs of neighbours in a row. -/
def adjacentPairs (row : List ℕ) : List (ℕ × ℕ) := row.zip row.tail

theorem adjacentPairs_range (n : ℕ) (f : ℕ → ℕ) :
    adjacentPairs ((List.range n).map f) = (List.range (n - 1)).map fun j => (f j, f (j + 1)) := by
  apply List.ext_getElem?
  intro j
  rw [adjacentPairs, List.getElem?_map]
  by_cases hj : j < n - 1
  · rw [List.getElem?_range hj, List.getElem?_zip_eq_some.mpr ⟨?_, ?_⟩]
    · rfl
    · rw [List.getElem?_map, List.getElem?_range (by omega)]
      rfl
    · rw [List.getElem?_tail, List.getElem?_map, List.getElem?_range (by omega)]
      rfl
  · rw [List.getElem?_eq_none (by simp; omega), List.getElem?_eq_none (by simp; omega)]
    rfl

/-- The place counted from the end in a reversed row. -/
def placeIn (n : ℕ) (reversed : Bool) (j : ℕ) : ℕ := if reversed then n - 1 - j else j

/-- The row `i` of a family. -/
def familyEntries (n : ℕ) (reversed : Bool) (i : ℕ) : List ℕ :=
  (List.range n).map fun j => entry n i (placeIn n reversed j)

theorem familyEntries_base {n : ℕ} (hn : 0 < n) (i : ℕ) :
    familyEntries n false i = translate n (williamsFirstRow n) i := (translate_eq hn i).symm

theorem familyEntries_reversed {n : ℕ} (hn : 0 < n) (i : ℕ) :
    familyEntries n true i = (translate n (williamsFirstRow n) i).reverse := by
  rw [translate_eq hn]
  apply List.ext_getElem?
  intro j
  rw [familyEntries, List.getElem?_map]
  by_cases hj : j < n
  · rw [List.getElem?_range hj, List.getElem?_reverse (by simpa using hj), List.getElem?_map,
      List.length_map, List.length_range, List.getElem?_range (by omega)]
    rfl
  · rw [List.getElem?_eq_none (by simpa using hj), List.getElem?_eq_none (by simpa using hj)]
    rfl

/-- From one place to the next: up by an odd number or down by an even one. -/
theorem zigzag_step (j : ℕ) : zigzag (j + 1) - zigzag j = if j % 2 = 0 then (j : ℤ) + 1 else -((j : ℤ) + 1) := by
  rw [zigzag, zigzag]
  rcases Nat.mod_two_eq_zero_or_one j with h | h
  · rw [if_pos (by omega), if_neg (by omega), if_pos h]
    omega
  · rw [if_neg (by omega), if_pos h, if_neg (by omega)]
    omega

theorem opposite_places {n j j' : ℕ} (hj : j + 1 < n) (hj' : j' + 1 < n)
    (h : (n : ℤ) ∣ (j : ℤ) + 1 + (j' + 1)) : j + 1 + (j' + 1) = n := by
  have hzero := Int.eq_zero_of_abs_lt_dvd (dvd_sub h (dvd_refl (n : ℤ))) (by rw [abs_lt]; omega)
  omega

/-- Two rows have a directed pair in common only at the same place of the same row, or at places
that are opposite in rows half the arms apart. -/
theorem dvd_of_same_pair {n i i' j j' : ℕ} (hodd : n % 2 = 1) (hj : j + 1 < n) (hj' : j' + 1 < n)
    (hfirst : (n : ℤ) ∣ zigzag j + i - (zigzag j' + i'))
    (hsecond : (n : ℤ) ∣ zigzag (j + 1) + i - (zigzag (j' + 1) + i')) :
    ∃ c : ℤ, (c = 0 ∨ c = ((n : ℤ) - 1) / 2 ∨ c = -(((n : ℤ) - 1) / 2)) ∧ (n : ℤ) ∣ (i : ℤ) - i' + c := by
  have hstep : (n : ℤ) ∣ (zigzag (j + 1) - zigzag j) - (zigzag (j' + 1) - zigzag j') := by
    have := dvd_sub hsecond hfirst
    rwa [show zigzag (j + 1) + i - (zigzag (j' + 1) + i') - (zigzag j + i - (zigzag j' + i')) =
      (zigzag (j + 1) - zigzag j) - (zigzag (j' + 1) - zigzag j') by ring] at this
  rw [zigzag_step, zigzag_step] at hstep
  rcases Nat.mod_two_eq_zero_or_one j with h | h <;> rcases Nat.mod_two_eq_zero_or_one j' with h' | h'
  · rw [if_pos h, if_pos h'] at hstep
    have hzero := Int.eq_zero_of_abs_lt_dvd hstep (by rw [abs_lt]; omega)
    obtain rfl : j = j' := by omega
    refine ⟨0, Or.inl rfl, ?_⟩
    rwa [show zigzag j + i - (zigzag j + i') = (i : ℤ) - i' + 0 by ring] at hfirst
  · rw [if_pos h, if_neg (by omega)] at hstep
    have hsum := opposite_places hj hj' (by rwa [show (j : ℤ) + 1 - -(j' + 1) = (j : ℤ) + 1 + (j' + 1) by ring] at hstep)
    refine ⟨-(((n : ℤ) - 1) / 2), Or.inr (Or.inr rfl), ?_⟩
    rw [zigzag, zigzag, if_neg (by omega), if_pos h'] at hfirst
    rwa [show -((j : ℤ) / 2) + i - (((j' : ℤ) + 1) / 2 + i') = (i : ℤ) - i' + -(((n : ℤ) - 1) / 2) by omega] at hfirst
  · rw [if_neg (by omega), if_pos h'] at hstep
    have hsum := opposite_places hj hj' (by
      rw [show -((j : ℤ) + 1) - (j' + 1) = -((j : ℤ) + 1 + (j' + 1)) by ring] at hstep
      exact (dvd_neg).mp hstep)
    refine ⟨((n : ℤ) - 1) / 2, Or.inr (Or.inl rfl), ?_⟩
    rw [zigzag, zigzag, if_pos h, if_neg (by omega)] at hfirst
    rwa [show ((j : ℤ) + 1) / 2 + i - (-((j' : ℤ) / 2) + i') = (i : ℤ) - i' + ((n : ℤ) - 1) / 2 by omega] at hfirst
  · rw [if_neg (by omega), if_neg (by omega)] at hstep
    have hzero := Int.eq_zero_of_abs_lt_dvd hstep (by rw [abs_lt]; omega)
    obtain rfl : j = j' := by omega
    refine ⟨0, Or.inl rfl, ?_⟩
    rwa [show zigzag j + i - (zigzag j + i') = (i : ℤ) - i' + 0 by ring] at hfirst

/-! ## Windows -/

/-- So many consecutive rows from `start`, in one direction. -/
def cyclicWindow (n start : ℕ) (direction : ℤ) (count : ℕ) : List ℕ :=
  (List.range count).map fun offset : ℕ => ((start + direction * offset) % n).toNat

theorem translatedWindow_eq (sha256 : ByteArray → List UInt8) (c : Coordinates) (n remaining : ℕ) :
    translatedWindow sha256 c n remaining = cyclicWindow n (seed sha256 c ["williams_remainder_order"] % n)
      (if seed sha256 c ["williams_remainder_direction"] % 2 = 0 then 1 else -1) remaining := rfl

/-- Rows that are neither the same nor half the arms apart. -/
def Apart (n : ℕ) (i i' : ℕ) : Prop :=
  ∀ c : ℤ, c = 0 ∨ c = ((n : ℤ) - 1) / 2 ∨ c = -(((n : ℤ) - 1) / 2) → ¬(n : ℤ) ∣ (i : ℤ) - i' + c

theorem pairwise_apart {n : ℕ} (hodd : n % 2 = 1) (start : ℕ) {direction : ℤ}
    (hdirection : direction = 1 ∨ direction = -1) {count : ℕ} (hcount : count ≤ n / 2) :
    (cyclicWindow n start direction count).Pairwise (Apart n) := by
  rw [cyclicWindow, List.pairwise_map]
  refine List.Nodup.pairwise_of_forall_ne List.nodup_range fun s hs t ht hne c hc hdvd => ?_
  rw [List.mem_range] at hs ht
  have hn : (0 : ℤ) < n := by omega
  rw [Int.toNat_of_nonneg (Int.emod_nonneg _ hn.ne'), Int.toNat_of_nonneg (Int.emod_nonneg _ hn.ne')] at hdvd
  have hoffsets : (n : ℤ) ∣ direction * s - direction * t + c := by
    have h1 := (Int.emod_emod_of_dvd (start + direction * (s : ℤ)) (dvd_refl (n : ℤ)))
    have h2 := (Int.emod_emod_of_dvd (start + direction * (t : ℤ)) (dvd_refl (n : ℤ)))
    rw [emod_eq_iff_dvd] at h1 h2
    have := dvd_sub (dvd_add hdvd h2) h1
    rwa [show (start + direction * s) % (n : ℤ) - (start + direction * t) % (n : ℤ) + c +
      ((start + direction * t) % (n : ℤ) - (start + direction * t)) -
      ((start + direction * s) % (n : ℤ) - (start + direction * s)) = direction * s - direction * t + c by ring] at this
  rcases hdirection with rfl | rfl
  · have hzero := Int.eq_zero_of_abs_lt_dvd hoffsets (by rw [abs_lt]; omega)
    omega
  · have hzero := Int.eq_zero_of_abs_lt_dvd hoffsets (by rw [abs_lt]; omega)
    omega

/-- No arm is at one place in both rows, no directed pair in both. -/
def Unrepeated (row row' : List ℕ) : Prop :=
  (∀ j x : ℕ, row[j]? = some x → row'[j]? ≠ some x) ∧ ∀ pair ∈ adjacentPairs row, pair ∉ adjacentPairs row'

theorem unrepeated_of_apart {n i i' : ℕ} (hodd : n % 2 = 1) (reversed : Bool) (h : Apart n i i') :
    Unrepeated (familyEntries n reversed i) (familyEntries n reversed i') := by
  have hn : 0 < n := by omega
  constructor
  · intro j x hx hx'
    rw [familyEntries, List.getElem?_map] at hx hx'
    obtain ⟨k, hk, hval⟩ := Option.map_eq_some_iff.mp hx
    obtain ⟨k', hk', hval'⟩ := Option.map_eq_some_iff.mp hx'
    obtain rfl : k = k' := Option.some.inj (hk.symm.trans hk')
    have hdvd := (entry_eq_entry hn).mp (hval.trans hval'.symm)
    refine h 0 (Or.inl rfl) ?_
    rwa [show zigzag (placeIn n reversed k) + i - (zigzag (placeIn n reversed k) + i') = (i : ℤ) - i' + 0 by ring]
      at hdvd
  · intro pair hpair hpair'
    rw [familyEntries, adjacentPairs_range, List.mem_map] at hpair hpair'
    obtain ⟨j, hj, rfl⟩ := hpair
    obtain ⟨j', hj', heq⟩ := hpair'
    rw [List.mem_range] at hj hj'
    obtain ⟨hfirst, hsecond⟩ := Prod.mk.inj heq.symm
    have hfirst := (entry_eq_entry hn).mp hfirst
    have hsecond := (entry_eq_entry hn).mp hsecond
    cases reversed with
    | false =>
      obtain ⟨c, hc, hdvd⟩ := @dvd_of_same_pair n i i' j j' hodd (by omega) (by omega) hfirst hsecond
      exact h c hc hdvd
    | true =>
      -- counted from the end, the two places of a pair change order
      have hplace : ∀ k, k < n - 1 → placeIn n true k = placeIn n true (k + 1) + 1 := by
        intro k hk
        change n - 1 - k = n - 1 - (k + 1) + 1
        omega
      rw [hplace j hj, hplace j' hj'] at hfirst
      have hlt : ∀ k, k < n - 1 → placeIn n true (k + 1) + 1 < n := by
        intro k hk
        change n - 1 - (k + 1) + 1 < n
        omega
      obtain ⟨c, hc, hdvd⟩ := dvd_of_same_pair hodd (hlt j hj) (hlt j' hj') hsecond hfirst
      exact h c hc hdvd

/-! ## The full design -/

theorem sum_range_list (m : ℕ) (f : ℕ → ℕ) : ((List.range m).map f).sum = ∑ j ∈ Finset.range m, f j := by
  induction m with
  | zero => rfl
  | succ m ih => rw [List.range_succ, List.map_append, List.sum_append, ih, Finset.sum_range_succ, List.map_singleton, List.sum_singleton]

theorem countP_range (m : ℕ) (p : ℕ → Prop) [DecidablePred p] :
    (List.range m).countP (fun j => p j) = ∑ j ∈ Finset.range m, if p j then 1 else 0 := by
  induction m with
  | zero => rfl
  | succ m ih =>
    rw [List.range_succ, List.countP_append, ih, Finset.sum_range_succ, List.countP_singleton]
    simp only [decide_eq_true_eq]

theorem count_range_list {β : Type} [BEq β] [LawfulBEq β] [DecidableEq β] (m : ℕ) (g : ℕ → β) (b : β) :
    ((List.range m).map g).count b = ∑ j ∈ Finset.range m, if g j = b then 1 else 0 := by
  rw [← countP_range, List.count_eq_countP, List.countP_map]
  exact List.countP_congr fun j _ => by simp

/-- Exactly one translation takes `z` to the arm `x`. -/
theorem sum_translates {n x : ℕ} (hx : x < n) (z : ℤ) :
    (∑ i ∈ Finset.range n, if (n : ℤ) ∣ z + i - x then 1 else 0) = 1 := by
  have hn : (0 : ℤ) < n := by omega
  have hcast : (((x - z) % n).toNat : ℤ) = (x - z) % n := Int.toNat_of_nonneg (Int.emod_nonneg _ hn.ne')
  have hlt := Int.emod_lt_of_pos (x - z) hn
  have hself : (n : ℤ) ∣ z + ((x - z) % n).toNat - x := by
    rw [hcast, ← dvd_neg, show -(z + (x - z) % (n : ℤ) - x) = (x - z) - (x - z) % n by ring]
    exact Int.dvd_self_sub_emod
  rw [Finset.sum_eq_single ((x - z) % n).toNat, if_pos hself]
  · intro i hi hne
    refine if_neg fun hdvd => hne ?_
    have hboth := dvd_sub hdvd hself
    have hi := Finset.mem_range.mp hi
    have hzero := Int.eq_zero_of_abs_lt_dvd hboth (by
      rw [abs_lt]
      constructor <;> omega)
    omega
  · intro hout
    rw [Finset.mem_range] at hout
    omega

/-- How often a directed pair stands in the rows of a family. -/
theorem count_family {n x y : ℕ} (hodd : n % 2 = 1) (hx : x < n) (hy : y < n) (hne : x ≠ y) :
    (((List.range n).map (familyEntries n false)).flatMap adjacentPairs).count (x, y) =
      if ((y : ℤ) - x) % n % 2 = 1 then 2 else 0 := by
  have hn : 0 < n := by omega
  have hrow : ∀ i, (adjacentPairs (familyEntries n false i)).count (x, y) = ∑ j ∈ Finset.range (n - 1),
      if (n : ℤ) ∣ zigzag j + i - x ∧ (n : ℤ) ∣ zigzag (j + 1) + i - y then 1 else 0 := by
    intro i
    rw [familyEntries, adjacentPairs_range, count_range_list]
    refine Finset.sum_congr rfl fun j _ => if_congr ?_ rfl rfl
    rw [Prod.mk.injEq, entry_eq_iff hn hx, entry_eq_iff hn hy]
    rfl
  rw [List.count_flatMap, List.map_map, sum_range_list]
  have hswap : (∑ i ∈ Finset.range n, ((List.count (x, y) ∘ adjacentPairs) ∘ familyEntries n false) i) =
      ∑ j ∈ Finset.range (n - 1), if (n : ℤ) ∣ zigzag (j + 1) - zigzag j - (y - x) then 1 else 0 := by
    simp only [Function.comp_apply, hrow]
    rw [Finset.sum_comm]
    refine Finset.sum_congr rfl fun j _ => ?_
    split
    · rename_i hstep
      refine Eq.trans ?_ (sum_translates hx (zigzag j))
      refine Finset.sum_congr rfl fun i _ => if_congr ⟨And.left, fun h => ⟨h, ?_⟩⟩ rfl rfl
      have := dvd_add h hstep
      rwa [show zigzag j + i - x + (zigzag (j + 1) - zigzag j - (y - x)) = zigzag (j + 1) + i - (y : ℤ) by ring] at this
    · rename_i hstep
      refine Finset.sum_eq_zero fun i _ => if_neg fun h => hstep ?_
      have := dvd_sub h.2 h.1
      rwa [show zigzag (j + 1) + i - (y : ℤ) - (zigzag j + i - x) = zigzag (j + 1) - zigzag j - (y - x) by ring] at this
  -- the difference of the pair is odd at two places of a row and even at none
  obtain ⟨e, he, hpos, hlt⟩ : ∃ e : ℕ, ((y : ℤ) - x) % n = e ∧ 0 < e ∧ e < n := by
    have hn' : (0 : ℤ) < n := by omega
    have hbound := Int.emod_lt_of_pos ((y : ℤ) - x) hn'
    obtain ⟨e, he⟩ := Int.eq_ofNat_of_zero_le (Int.emod_nonneg ((y : ℤ) - x) hn'.ne')
    refine ⟨e, he, Nat.pos_of_ne_zero fun hzero => hne ?_, by omega⟩
    rw [hzero] at he
    have hdvd := Int.eq_zero_of_abs_lt_dvd (Int.dvd_of_emod_eq_zero he) (by rw [abs_lt]; omega)
    omega
  have hplace : ∀ j ∈ Finset.range (n - 1), ((n : ℤ) ∣ zigzag (j + 1) - zigzag j - (y - x) ↔
      j % 2 = 0 ∧ j + 1 = e ∨ j % 2 = 1 ∧ j + 1 + e = n) := by
    intro j hj
    have hj := Finset.mem_range.mp hj
    have hreduced : (n : ℤ) ∣ zigzag (j + 1) - zigzag j - (y - x) ↔ (n : ℤ) ∣ zigzag (j + 1) - zigzag j - e := by
      rw [← emod_eq_iff_dvd, ← emod_eq_iff_dvd, ← he, Int.emod_emod_of_dvd _ (dvd_refl _)]
    rw [hreduced, zigzag_step]
    rcases Nat.mod_two_eq_zero_or_one j with h | h
    · rw [if_pos h]
      constructor
      · intro hdvd
        have hzero := Int.eq_zero_of_abs_lt_dvd hdvd (by rw [abs_lt]; omega)
        exact Or.inl ⟨h, by omega⟩
      · rintro (⟨-, heq⟩ | ⟨hodd', -⟩)
        · rw [show (j : ℤ) + 1 - e = 0 by omega]
          exact dvd_zero _
        · omega
    · rw [if_neg (by omega)]
      constructor
      · intro hdvd
        have hsum := dvd_add hdvd (dvd_refl (n : ℤ))
        have hzero := Int.eq_zero_of_abs_lt_dvd hsum (by rw [abs_lt]; omega)
        exact Or.inr ⟨h, by omega⟩
      · rintro (⟨heven, -⟩ | ⟨-, heq⟩)
        · omega
        · rw [show -((j : ℤ) + 1) - e = -n by omega]
          exact (dvd_neg).mpr (dvd_refl _)
  rw [hswap, Finset.sum_congr rfl fun j hj => if_congr (hplace j hj) rfl rfl, ← Finset.card_filter, he]
  have hpair : ({j ∈ Finset.range (n - 1) | j % 2 = 0 ∧ j + 1 = e ∨ j % 2 = 1 ∧ j + 1 + e = n}) =
      if e % 2 = 1 then {e - 1, n - 1 - e} else ∅ := by
    ext j
    rw [Finset.mem_filter, Finset.mem_range]
    split
    · rw [Finset.mem_insert, Finset.mem_singleton]
      omega
    · simp only [Finset.notMem_empty, iff_false]
      omega
  rw [hpair]
  split
  · rw [if_pos (by omega), Finset.card_pair (by omega)]
  · rw [if_neg (by omega), Finset.card_empty]

/-- Read backwards, a row has its pairs the other way round. -/
theorem count_adjacent_reversed {n : ℕ} (i x y : ℕ) :
    (adjacentPairs (familyEntries n true i)).count (x, y) =
      (adjacentPairs (familyEntries n false i)).count (y, x) := by
  rw [familyEntries, familyEntries, adjacentPairs_range, adjacentPairs_range, count_range_list, count_range_list,
    ← Finset.sum_range_reflect]
  refine Finset.sum_congr rfl fun j hj => ?_
  have hj := Finset.mem_range.mp hj
  have hplace : placeIn n true (n - 1 - 1 - j) = j + 1 ∧ placeIn n true (n - 1 - 1 - j + 1) = j := by
    constructor
    · change n - 1 - (n - 1 - 1 - j) = j + 1
      omega
    · change n - 1 - (n - 1 - 1 - j + 1) = j
      omega
  rw [hplace.1, hplace.2]
  refine if_congr ?_ rfl rfl
  rw [Prod.mk.injEq, Prod.mk.injEq]
  exact and_comm

/-- The rows of an odd design: both families. -/
theorem williamsRows_odd {n : ℕ} (hodd : n % 2 = 1) : williamsRows n =
    (List.range n).map (familyEntries n false) ++ (List.range n).map (familyEntries n true) := by
  have hn : 0 < n := by omega
  rw [williamsRows, if_pos hodd, square, List.map_map]
  congr 1
  · exact List.map_congr_left fun i _ => (familyEntries_base hn i).symm
  · exact List.map_congr_left fun i _ => (familyEntries_reversed hn i).symm

theorem count_pairs {n x y : ℕ} (hodd : n % 2 = 1) (hx : x < n) (hy : y < n) (hne : x ≠ y) :
    ((williamsRows n).flatMap adjacentPairs).count (x, y) = 2 := by
  have hreversed : (((List.range n).map (familyEntries n true)).flatMap adjacentPairs).count (x, y) =
      (((List.range n).map (familyEntries n false)).flatMap adjacentPairs).count (y, x) := by
    rw [List.count_flatMap, List.count_flatMap, List.map_map, List.map_map]
    exact congrArg List.sum (List.map_congr_left fun i _ => count_adjacent_reversed i x y)
  rw [williamsRows_odd hodd, List.flatMap_append, List.count_append, hreversed, count_family hodd hx hy hne,
    count_family hodd hy hx hne.symm]
  have hn : (0 : ℤ) < n := by omega
  have h1 := Int.emod_nonneg ((y : ℤ) - x) hn.ne'
  have h2 := Int.emod_nonneg ((x : ℤ) - y) hn.ne'
  have h3 := Int.emod_lt_of_pos ((y : ℤ) - x) hn
  have h4 := Int.emod_lt_of_pos ((x : ℤ) - y) hn
  -- the two differences add up to the odd number of arms
  have hsum : ((y : ℤ) - x) % n + ((x : ℤ) - y) % n = n := by
    have hdvd : (n : ℤ) ∣ ((y : ℤ) - x) % n + ((x : ℤ) - y) % n := by
      have hy := emod_eq_iff_dvd.mp (Int.emod_emod_of_dvd ((y : ℤ) - x) (dvd_refl (n : ℤ)))
      have hx := emod_eq_iff_dvd.mp (Int.emod_emod_of_dvd ((x : ℤ) - y) (dvd_refl (n : ℤ)))
      have := dvd_add hy hx
      rwa [show ((y : ℤ) - x) % n - (y - x) + (((x : ℤ) - y) % n - (x - y)) =
        ((y : ℤ) - x) % n + ((x : ℤ) - y) % n by ring] at this
    have hpos : ((y : ℤ) - x) % n ≠ 0 := fun hzero => by
      have := Int.eq_zero_of_abs_lt_dvd (Int.dvd_of_emod_eq_zero hzero) (by rw [abs_lt]; omega)
      omega
    have hzero := Int.eq_zero_of_abs_lt_dvd (dvd_sub hdvd (dvd_refl (n : ℤ))) (by rw [abs_lt]; omega)
    omega
  rcases Int.emod_two_eq_zero_or_one (((y : ℤ) - x) % n) with h | h
  · rw [if_neg (by omega), if_pos (by omega)]
  · rw [if_pos h, if_neg (by omega)]

theorem count_place {n j x : ℕ} (hodd : n % 2 = 1) (hj : j < n) (hx : x < n) :
    (williamsRows n).countP (fun row => row[j]? = some x) = 2 := by
  have hn : 0 < n := by omega
  have hfamily : ∀ reversed, ((List.range n).map (familyEntries n reversed)).countP (fun row => row[j]? = some x) = 1 := by
    intro reversed
    rw [List.countP_map, ← sum_translates hx (zigzag (placeIn n reversed j)), ← countP_range]
    refine List.countP_congr fun i _ => ?_
    rw [Function.comp_apply, familyEntries, List.getElem?_map, List.getElem?_range hj, decide_eq_true_eq,
      decide_eq_true_eq, ← entry_eq_iff hn hx]
    exact Option.some_inj
  rw [williamsRows_odd hodd, List.countP_append, hfamily, hfamily]

/-! ## Windows of the design -/

/-- The row at a place of a window, of the base rows or their reversals. -/
def familyRow (d : Design) (reversed : Bool) (index : ℕ) : Except AssignmentError (List ℕ) := do
  let index ← if reversed then d.reversalOf index else .ok index
  d.row index

theorem familyRow_ok {d : Design} {n : ℕ} (hodd : n % 2 = 1) (hrows : d.rows = williamsRows n)
    (hd : Reversible d (reversalIndex n)) (reversed : Bool) {i : ℕ} (hi : i < n) :
    familyRow d reversed i = .ok (familyEntries n reversed i) := by
  have hn : 0 < n := by omega
  have hlen : d.rows.length = 2 * n := by rw [hrows, williamsRows_length, rowCount, if_pos hodd]
  have hbase : d.rows[i]? = some (translate n (williamsFirstRow n) i) := by
    rw [hrows, williamsRows, if_pos hodd, List.getElem?_append_left (by rw [square_length]; exact hi), square_get hi]
  cases reversed with
  | false =>
    rw [familyEntries_base hn]
    have hrow : d.row i = .ok (translate n (williamsFirstRow n) i) := by
      rw [Design.row, hbase]
      rfl
    exact hrow
  | true =>
    rw [familyEntries_reversed hn]
    have hrow : d.row (reversalIndex n i) = .ok (translate n (williamsFirstRow n) i).reverse := by
      rw [Design.row, hd.reversed i _ hbase]
      rfl
    have hindex := hd.reversalOf_ok (show i < d.rows.length by omega)
    rw [familyRow, if_pos rfl, hindex]
    exact hrow

/-- For an odd number of arms a window of at most half of them repeats no arm at a place and no
directed pair; the full design has every arm twice at every place and every directed pair twice. -/
theorem safe_cyclic_windows (n : ℕ) (hodd : n % 2 = 1) (hn : 3 ≤ n) :
    ∃ d, williamsDesign n = .ok d ∧
      (∀ (start : ℕ) (direction : ℤ) (reversed : Bool) (count : ℕ), direction = 1 ∨ direction = -1 →
        count ≤ n / 2 → ∃ rows, (cyclicWindow n start direction count).mapM (familyRow d reversed) = .ok rows ∧
          rows.length = count ∧ rows.Pairwise Unrepeated) ∧
      (∀ j < n, ∀ x < n, d.rows.countP (fun row => row[j]? = some x) = 2) ∧
      ∀ x < n, ∀ y < n, x ≠ y → (d.rows.flatMap adjacentPairs).count (x, y) = 2 := by
  obtain ⟨d, hd, hrows, hreversible⟩ := williamsDesign_ok (show 2 ≤ n by omega)
  refine ⟨d, hd, fun start direction reversed count hdirection hcount => ?_, fun j hj x hx => ?_,
    fun x hx y hy hne => ?_⟩
  · refine ⟨(cyclicWindow n start direction count).map (familyEntries n reversed), mapM_ok_of fun i hi => ?_, ?_, ?_⟩
    · obtain ⟨offset, -, rfl⟩ := List.mem_map.mp hi
      have hlt := Int.emod_lt_of_pos (start + direction * offset) (show (0 : ℤ) < n by omega)
      exact familyRow_ok hodd hrows hreversible reversed (by omega)
    · rw [List.length_map, cyclicWindow, List.length_map, List.length_range]
    · rw [List.pairwise_map]
      exact (pairwise_apart hodd start hdirection hcount).imp (unrepeated_of_apart hodd reversed)
  · rw [hrows]
    exact count_place hodd hj hx
  · rw [hrows]
    exact count_pairs hodd hx hy hne

theorem safe_cyclic_windows_seven :
    ∃ d, williamsDesign 7 = .ok d ∧ ∃ rows, (cyclicWindow 7 5 (-1) 3).mapM (familyRow d true) = .ok rows ∧
      rows.length = 3 ∧ rows.Pairwise Unrepeated := by
  obtain ⟨d, hd, hwindow, -⟩ := safe_cyclic_windows 7 (by decide) (by decide)
  exact ⟨d, hd, hwindow 5 (-1) true 3 (Or.inr rfl) (by decide)⟩

end Shapeflow.Randomization
