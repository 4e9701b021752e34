import Mathlib.Data.List.Nodup
import Mathlib.Data.List.Perm.Basic
import Mathlib.Data.List.Range
import Mathlib.Data.Nat.ModEq
import Mathlib.Tactic.Ring
import Shapeflow.Fallible
import Shapeflow.Utf8

set_option autoImplicit false

/-!
# Williams squares

Seeds from stable coordinates, seeded permutations, and the Williams design:
its rows are distinct arm orders, closed under reversal.
-/
namespace Shapeflow.Randomization

/-! ## Seeds -/

/-- `int.from_bytes(digest, "big")` -/
def fromBytesBig (digest : List UInt8) : ℕ := digest.foldl (fun n b => 256 * n + b.toNat) 0

section
variable (sha256 : ByteArray → List UInt8)

def deriveSeed (parts : List String) : ℕ :=
  fromBytesBig ((sha256 (String.intercalate "\x1f" parts).toUTF8).take 4)

/-- The index in `[0, i]` drawn at the step `i`. -/
def draw (seed i : ℕ) : ℕ :=
  fromBytesBig ((sha256 (toString seed ++ ":" ++ toString i).toUTF8).take 8) % (i + 1)

variable {α : Type}

def swap (xs : List α) (i j : ℕ) : List α :=
  if h : i < xs.length ∧ j < xs.length then (xs.set i (xs.get ⟨j, h.2⟩)).set j (xs.get ⟨i, h.1⟩) else xs

/-- Fisher-Yates from the index `i` down. -/
def shuffle (seed : ℕ) : ℕ → List α → List α
  | 0, result => result
  | i + 1, result => shuffle seed i (swap result (i + 1) (draw sha256 seed (i + 1)))

def seededPermutation (items : List α) (seed : ℕ) : List α := shuffle sha256 seed (items.length - 1) items

theorem swap_perm (xs : List α) (i j : ℕ) : (swap xs i j).Perm xs := by
  unfold swap
  split
  · rename_i h
    exact List.set_set_perm h.1 h.2
  · exact List.Perm.refl xs

theorem shuffle_perm (seed i : ℕ) (xs : List α) : (shuffle sha256 seed i xs).Perm xs := by
  induction i generalizing xs with
  | zero => exact List.Perm.refl xs
  | succ i ih => exact (ih _).trans (swap_perm xs _ _)

theorem seededPermutation_perm (items : List α) (seed : ℕ) : (seededPermutation sha256 items seed).Perm items :=
  shuffle_perm sha256 seed _ items

end

/-! ## The square -/

/-- The loop of `_williams_first_row`: so many entries more, from below and from above in turn. -/
def firstRowLoop : ℕ → ℕ → ℕ → Bool → List ℕ
  | 0, _, _, _ => []
  | k + 1, lo, hi, true => lo :: firstRowLoop k (lo + 1) hi false
  | k + 1, lo, hi, false => hi :: firstRowLoop k lo (hi - 1) true

def williamsFirstRow (n : ℕ) : List ℕ := 0 :: firstRowLoop (n - 1) 1 (n - 1) true

inductive WilliamsError
  | needTwoTreatments
deriving DecidableEq

def translate (n : ℕ) (row : List ℕ) (i : ℕ) : List ℕ := row.map fun x => (x + i) % n

def square (n : ℕ) : List (List ℕ) := (List.range n).map (translate n (williamsFirstRow n))

/-- The rows of `williams_square`. -/
def williamsRows (n : ℕ) : List (List ℕ) :=
  if n % 2 = 1 then square n ++ (square n).map List.reverse else square n

def williamsSquare (n : ℕ) : Except WilliamsError (List (List ℕ)) :=
  if n < 2 then .error .needTwoTreatments else .ok (williamsRows n)

/-! ## The first row -/

theorem firstRowLoop_length (k lo hi : ℕ) (b : Bool) : (firstRowLoop k lo hi b).length = k := by
  induction k generalizing lo hi b with
  | zero => rfl
  | succ k ih => cases b <;> simp only [firstRowLoop, List.length_cons, ih]

/-- What is left is taken, each number between the ends once. -/
theorem firstRowLoop_perm (k lo hi : ℕ) (b : Bool) (hlo : 0 < lo) (h : lo + k = hi + 1) :
    (firstRowLoop k lo hi b).Perm (List.range' lo k) := by
  induction k generalizing lo hi b with
  | zero => exact List.Perm.refl _
  | succ k ih =>
    cases b with
    | true =>
      rw [List.range'_succ]
      exact List.Perm.cons lo (ih (lo + 1) hi false (by omega) (by omega))
    | false =>
      have hrest := ih lo (hi - 1) true hlo (by omega)
      have hlast : List.range' lo (k + 1) = List.range' lo k ++ [hi] := by
        rw [List.range'_1_concat]
        congr 2
        omega
      rw [hlast]
      exact (List.Perm.cons hi hrest).trans (List.perm_append_singleton hi _).symm

theorem williamsFirstRow_perm {n : ℕ} (hn : 0 < n) : (williamsFirstRow n).Perm (List.range n) := by
  have hrest := firstRowLoop_perm (n - 1) 1 (n - 1) true (by omega) (by omega)
  have hrange : List.range n = 0 :: List.range' 1 (n - 1) := by
    obtain ⟨m, rfl⟩ := Nat.exists_eq_succ_of_ne_zero (Nat.ne_of_gt hn)
    rw [List.range_eq_range', List.range'_succ]
    rfl
  rw [hrange]
  exact List.Perm.cons 0 hrest

theorem williamsFirstRow_length {n : ℕ} (hn : 0 < n) : (williamsFirstRow n).length = n := by
  rw [(williamsFirstRow_perm hn).length_eq, List.length_range]

/-- The entry at `j`: counted up at the odd places, down at the even ones. -/
theorem firstRowLoop_get (k lo hi : ℕ) (b : Bool) (j : ℕ) (h : lo + k ≤ hi + 1) (hj : j < k) :
    (firstRowLoop k lo hi b)[j]? = some (if (j % 2 = 0) = (b = true) then lo + j / 2 else hi - j / 2) := by
  induction k generalizing lo hi b j with
  | zero => omega
  | succ k ih =>
    cases j with
    | zero => cases b <;> simp [firstRowLoop]
    | succ j =>
      cases b with
      | true =>
        rw [firstRowLoop, List.getElem?_cons_succ, ih (lo + 1) hi false j (by omega) (by omega)]
        rcases Nat.mod_two_eq_zero_or_one j with hpar | hpar
        · have hnext : (j + 1) % 2 = 1 := by omega
          simp only [hpar, hnext]
          simp
          omega
        · have hnext : (j + 1) % 2 = 0 := by omega
          simp only [hpar, hnext]
          simp
          omega
      | false =>
        rw [firstRowLoop, List.getElem?_cons_succ, ih lo (hi - 1) true j (by omega) (by omega)]
        rcases Nat.mod_two_eq_zero_or_one j with hpar | hpar
        · have hnext : (j + 1) % 2 = 1 := by omega
          simp only [hpar, hnext]
          simp
          omega
        · have hnext : (j + 1) % 2 = 0 := by omega
          simp only [hpar, hnext]
          simp
          omega

/-- `0, 1, n-1, 2, n-2, ...`, with `n` for the first. -/
theorem williamsFirstRow_get {n j : ℕ} (hj : j < n) :
    ∃ x, (williamsFirstRow n)[j]? = some x ∧ (x = if j % 2 = 1 then (j + 1) / 2 else if j = 0 then 0 else n - j / 2) := by
  cases j with
  | zero => exact ⟨0, rfl, rfl⟩
  | succ j =>
    refine ⟨_, ?_, rfl⟩
    rw [williamsFirstRow, List.getElem?_cons_succ, firstRowLoop_get (n - 1) 1 (n - 1) true j (by omega) (by omega)]
    rcases Nat.mod_two_eq_zero_or_one j with hpar | hpar
    · have hnext : (j + 1) % 2 = 1 := by omega
      simp only [hpar, hnext]
      simp
      omega
    · have hnext : (j + 1) % 2 = 0 := by omega
      simp only [hpar, hnext]
      simp
      omega

/-! ## Rows -/

theorem translate_length (n : ℕ) (row : List ℕ) (i : ℕ) : (translate n row i).length = row.length :=
  List.length_map _

theorem translate_get {n i j x : ℕ} {row : List ℕ} (h : row[j]? = some x) :
    (translate n row i)[j]? = some ((x + i) % n) := by
  rw [translate, List.getElem?_map, h]
  rfl

theorem perm_range_of_nodup {n : ℕ} {xs : List ℕ} (hxs : xs.Nodup) (hlt : ∀ x ∈ xs, x < n) (hlen : xs.length = n) :
    xs.Perm (List.range n) := by
  have hsub : xs ⊆ List.range n := fun x hx => List.mem_range.mpr (hlt x hx)
  exact (List.subperm_of_subset hxs hsub).perm_of_length_le (by simp [hlen])

theorem add_mod_inj {n i x y : ℕ} (hx : x < n) (hy : y < n) (h : (x + i) % n = (y + i) % n) : x = y := by
  have hmod : x ≡ y [MOD n] := Nat.ModEq.add_right_cancel' i h
  exact hmod.eq_of_lt_of_lt hx hy

theorem translate_perm {n : ℕ} (hn : 0 < n) {row : List ℕ} (h : row.Perm (List.range n)) (i : ℕ) :
    (translate n row i).Perm (List.range n) := by
  have hlt : ∀ x ∈ row, x < n := fun x hx => List.mem_range.mp (h.mem_iff.mp hx)
  apply perm_range_of_nodup
  · have hrow : row.Nodup := h.nodup_iff.mpr List.nodup_range
    exact hrow.map_on fun x hx y hy => add_mod_inj (hlt x hx) (hlt y hy)
  · intro y hy
    obtain ⟨x, -, rfl⟩ := List.mem_map.mp hy
    exact Nat.mod_lt _ hn
  · rw [translate_length, h.length_eq, List.length_range]

theorem square_length (n : ℕ) : (square n).length = n := by simp [square]

theorem square_get {n i : ℕ} (hi : i < n) : (square n)[i]? = some (translate n (williamsFirstRow n) i) := by
  simp [square, hi]

/-- The row `i` begins with `i`. -/
theorem square_head {n i : ℕ} (hi : i < n) : (translate n (williamsFirstRow n) i)[0]? = some i := by
  rw [translate_get (x := 0) rfl, Nat.zero_add, Nat.mod_eq_of_lt hi]

theorem square_nodup (n : ℕ) : (square n).Nodup := by
  apply List.Nodup.map_on _ List.nodup_range
  intro i hi j hj h
  have hhead := square_head (List.mem_range.mp hi)
  rw [h, square_head (List.mem_range.mp hj)] at hhead
  exact (Option.some.inj hhead).symm

theorem mem_square_perm {n : ℕ} (hn : 0 < n) {row : List ℕ} (h : row ∈ square n) : row.Perm (List.range n) := by
  obtain ⟨i, -, rfl⟩ := List.mem_map.mp h
  exact translate_perm hn (williamsFirstRow_perm hn) i

theorem mem_williamsRows_perm {n : ℕ} (hn : 0 < n) {row : List ℕ} (h : row ∈ williamsRows n) :
    row.Perm (List.range n) := by
  unfold williamsRows at h
  split at h
  · rcases List.mem_append.mp h with hbase | hreversed
    · exact mem_square_perm hn hbase
    · obtain ⟨base, hbase, rfl⟩ := List.mem_map.mp hreversed
      exact (List.reverse_perm base).trans (mem_square_perm hn hbase)
  · exact mem_square_perm hn h

/-! ## Reversal -/

/-- The row that is the reversal of the row `i`. -/
def reversalIndex (n i : ℕ) : ℕ :=
  if n % 2 = 1 then (if i < n then i + n else i - n) else (if i < n / 2 then i + n / 2 else i - n / 2)

theorem mod_of_eq_add {n a b : ℕ} (h : a = b ∨ a = b + n ∨ b = a + n) : a % n = b % n := by
  rcases h with rfl | rfl | rfl
  · rfl
  · exact Nat.add_mod_right b n
  · exact (Nat.add_mod_right a n).symm

/-- An even square: the places counted from the end are half the treatments further. -/
theorem firstRow_mirror {n j x y : ℕ} (heven : n % 2 = 0) (hj : j < n) (hx : (williamsFirstRow n)[j]? = some x)
    (hy : (williamsFirstRow n)[n - 1 - j]? = some y) : y % n = (x + n / 2) % n := by
  obtain ⟨x', hx', hvx⟩ := williamsFirstRow_get hj
  obtain ⟨y', hy', hvy⟩ := williamsFirstRow_get (n := n) (j := n - 1 - j) (by omega)
  rw [hx] at hx'
  rw [hy] at hy'
  cases hx'
  cases hy'
  apply mod_of_eq_add
  split at hvx
  · rw [if_neg (by omega)] at hvy
    split at hvy <;> omega
  · rw [if_pos (by omega)] at hvy
    split at hvx <;> omega

theorem even_reverse {n i : ℕ} (heven : n % 2 = 0) (hi : i < n) :
    (translate n (williamsFirstRow n) i).reverse = translate n (williamsFirstRow n) (reversalIndex n i) := by
  have hn : 0 < n := Nat.zero_lt_of_lt hi
  have hlen := williamsFirstRow_length hn
  apply List.ext_getElem?
  intro j
  by_cases hj : j < n
  · rw [List.getElem?_reverse (by rw [translate_length, hlen]; exact hj), translate_length, hlen]
    obtain ⟨x, hx, -⟩ := williamsFirstRow_get hj
    obtain ⟨y, hy, -⟩ := williamsFirstRow_get (n := n) (j := n - 1 - j) (by omega)
    rw [translate_get hx, translate_get hy, Option.some.injEq, Nat.add_mod, firstRow_mirror heven hj hx hy,
      ← Nat.add_mod]
    apply mod_of_eq_add
    unfold reversalIndex
    rw [if_neg (by omega)]
    split <;> omega
  · rw [List.getElem?_eq_none (by rw [List.length_reverse, translate_length, hlen]; omega),
      List.getElem?_eq_none (by rw [translate_length, hlen]; omega)]

/-- Base rows go up from their first arm to the second, reversed ones down. -/
theorem odd_base_second {n i : ℕ} (hn : 2 ≤ n) : (translate n (williamsFirstRow n) i)[1]? = some ((1 + i) % n) := by
  obtain ⟨x, hx, hval⟩ := williamsFirstRow_get (n := n) (j := 1) (by omega)
  rw [if_pos (by omega)] at hval
  rw [translate_get hx, hval]

theorem odd_reversed_ends {n i : ℕ} (hodd : n % 2 = 1) (hn : 2 ≤ n) :
    ∃ z, (translate n (williamsFirstRow n) i).reverse[0]? = some ((z + 1 + i) % n) ∧
      (translate n (williamsFirstRow n) i).reverse[1]? = some ((z + i) % n) := by
  have hlen := williamsFirstRow_length (show 0 < n by omega)
  obtain ⟨x, hx, hvx⟩ := williamsFirstRow_get (n := n) (j := n - 1) (by omega)
  obtain ⟨y, hy, hvy⟩ := williamsFirstRow_get (n := n) (j := n - 1 - 1) (by omega)
  rw [if_neg (by omega), if_neg (by omega)] at hvx
  rw [if_pos (by omega)] at hvy
  have hxy : x = y + 1 := by omega
  have hdrop : (translate n (williamsFirstRow n) i).length = n := by rw [translate_length, hlen]
  refine ⟨y, ?_, ?_⟩
  · rw [List.getElem?_reverse (by omega), hdrop, Nat.sub_zero, translate_get hx, hxy]
  · rw [List.getElem?_reverse (by omega), hdrop, translate_get hy]

/-- No translated row is a reversed one. -/
theorem odd_base_ne_reversed {n i k : ℕ} (hodd : n % 2 = 1) (hn : 2 ≤ n) (hi : i < n) :
    translate n (williamsFirstRow n) i ≠ (translate n (williamsFirstRow n) k).reverse := by
  intro h
  obtain ⟨z, hfirst, hsecond⟩ := odd_reversed_ends (i := k) hodd hn
  rw [← h, square_head hi] at hfirst
  rw [← h, odd_base_second hn] at hsecond
  have hup : i ≡ z + 1 + k [MOD n] := (Nat.mod_eq_of_lt hi).trans (Option.some.inj hfirst)
  have hdown : 1 + i ≡ z + k [MOD n] := Option.some.inj hsecond
  have hboth : 2 + (z + k) ≡ 0 + (z + k) [MOD n] := by
    calc 2 + (z + k) = 1 + (z + 1 + k) := by omega
      _ ≡ 1 + i [MOD n] := (Nat.ModEq.add_left 1 hup).symm
      _ ≡ z + k [MOD n] := hdown
      _ = 0 + (z + k) := by omega
  have htwo : 2 ≡ 0 [MOD n] := Nat.ModEq.add_right_cancel' _ hboth
  have hlt : 2 = 0 := htwo.eq_of_lt_of_lt (by omega) (by omega)
  omega

theorem williamsRows_nodup {n : ℕ} (hn : 2 ≤ n) : (williamsRows n).Nodup := by
  unfold williamsRows
  split
  · rename_i hodd
    refine List.nodup_append.mpr ⟨square_nodup n, (square_nodup n).map List.reverse_injective, ?_⟩
    intro row hbase row' hreversed
    obtain ⟨i, hi, rfl⟩ := List.mem_map.mp hbase
    obtain ⟨base, hsquare, rfl⟩ := List.mem_map.mp hreversed
    obtain ⟨k, -, rfl⟩ := List.mem_map.mp hsquare
    exact odd_base_ne_reversed hodd hn (List.mem_range.mp hi)
  · exact square_nodup n

/-- The number of rows of the design. -/
def rowCount (n : ℕ) : ℕ := if n % 2 = 1 then 2 * n else n

theorem williamsRows_length (n : ℕ) : (williamsRows n).length = rowCount n := by
  unfold williamsRows rowCount
  split
  · rw [List.length_append, List.length_map, square_length]
    omega
  · exact square_length n

theorem williamsRows_get {n i : ℕ} {row : List ℕ} (h : (williamsRows n)[i]? = some row) :
    (williamsRows n)[reversalIndex n i]? = some row.reverse := by
  have hlt : i < rowCount n := by
    rw [← williamsRows_length]
    exact (List.getElem?_eq_some_iff.mp h).1
  by_cases hodd : n % 2 = 1
  · unfold williamsRows at h ⊢
    unfold rowCount at hlt
    unfold reversalIndex
    rw [if_pos hodd] at h hlt
    rw [if_pos hodd, if_pos hodd]
    by_cases hi : i < n
    · rw [List.getElem?_append_left (by rw [square_length]; exact hi)] at h
      rw [if_pos hi, List.getElem?_append_right (by rw [square_length]; omega), square_length, Nat.add_sub_cancel,
        List.getElem?_map, h]
      rfl
    · rw [List.getElem?_append_right (by rw [square_length]; omega), square_length, List.getElem?_map] at h
      obtain ⟨base, hbase, rfl⟩ := Option.map_eq_some_iff.mp h
      rw [if_neg hi, List.getElem?_append_left (by rw [square_length]; omega), hbase, List.reverse_reverse]
  · have heven : n % 2 = 0 := by omega
    unfold williamsRows at h ⊢
    unfold rowCount at hlt
    rw [if_neg hodd] at h hlt
    rw [if_neg hodd]
    have hnext : reversalIndex n i < n := by
      unfold reversalIndex
      rw [if_neg hodd]
      split <;> omega
    rw [square_get hlt] at h
    cases h
    rw [square_get hnext, even_reverse heven hlt]

theorem reversalIndex_lt {n i : ℕ} (hi : i < rowCount n) : reversalIndex n i < rowCount n := by
  unfold rowCount reversalIndex at *
  split_ifs at * <;> omega

theorem reversalIndex_reversalIndex {n i : ℕ} (hi : i < rowCount n) : reversalIndex n (reversalIndex n i) = i := by
  unfold rowCount reversalIndex at *
  split_ifs at * <;> omega

theorem reversalIndex_ne {n i : ℕ} (hn : 2 ≤ n) (hi : i < rowCount n) : reversalIndex n i ≠ i := by
  unfold rowCount reversalIndex at *
  split_ifs at * <;> omega

end Shapeflow.Randomization
