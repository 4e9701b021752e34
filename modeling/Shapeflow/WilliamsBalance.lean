import Mathlib.Data.Int.Order.Lemmas
import Mathlib.Data.List.ReduceOption
import Shapeflow.Fallible
import Shapeflow.JsonDocument
import Shapeflow.WilliamsAssignment

set_option autoImplicit false

/-!
# The assignment is total and balanced

Every task and replicate is given a row, second replicates the reversal of the first;
together the rows are complete copies of the design and distinct further rows.
-/
namespace Shapeflow.Randomization
open Py Canonical Pairing

/-! ## The design -/

/-- The rows are closed under a reversal that fixes none of them. -/
structure Reversible (d : Design) (partner : ℕ → ℕ) : Prop where
  reversal : d.reversal = (List.range d.rows.length).map partner
  pairing : IsPairing partner d.rows.length
  reversed : ∀ i row, d.rows[i]? = some row → d.rows[partner i]? = some row.reverse

theorem mem_zipIdx_rows {n i : ℕ} {row : List ℕ} (hn : 2 ≤ n) :
    (Dict.ofPairs (williamsRows n).zipIdx).get? row = some i ↔ (williamsRows n)[i]? = some row := by
  have hkeys : ((williamsRows n).zipIdx.map Prod.fst).Nodup := by
    rw [List.zipIdx_map_fst]
    exact williamsRows_nodup hn
  rw [Dict.get?_ofPairs_of_nodup hkeys, List.mem_zipIdx_iff_getElem?]

theorem reversal_eq {n : ℕ} (hn : 2 ≤ n) :
    (williamsRows n).map (fun row => (Dict.ofPairs (williamsRows n).zipIdx).get? row.reverse) =
      (List.range (williamsRows n).length).map fun i => some (reversalIndex n i) := by
  apply List.ext_getElem?
  intro i
  rw [List.getElem?_map, List.getElem?_map]
  cases hrow : (williamsRows n)[i]? with
  | none =>
    rw [List.getElem?_eq_none (by simpa using hrow)]
    rfl
  | some row =>
    have hi : i < (williamsRows n).length := (List.getElem?_eq_some_iff.mp hrow).1
    rw [List.getElem?_range hi]
    simp only [Option.map_some]
    rw [(mem_zipIdx_rows hn).mpr (williamsRows_get hrow)]

theorem williamsDesign_ok {n : ℕ} (hn : 2 ≤ n) :
    ∃ d, williamsDesign n = .ok d ∧ d.rows = williamsRows n ∧ Reversible d (reversalIndex n) := by
  have hkeys : ((williamsRows n).zipIdx.map Prod.fst).Nodup := by
    rw [List.zipIdx_map_fst]
    exact williamsRows_nodup hn
  have hlen : (Dict.ofPairs (williamsRows n).zipIdx).entries.length = (williamsRows n).length := by
    rw [Dict.entries_ofPairs_of_nodup hkeys, List.length_zipIdx]
  have hnone : none ∉ (williamsRows n).map fun row => (Dict.ofPairs (williamsRows n).zipIdx).get? row.reverse := by
    rw [reversal_eq hn]
    simp
  refine ⟨⟨williamsRows n, (List.range (williamsRows n).length).map (reversalIndex n)⟩, ?_, rfl, ?_⟩
  · unfold williamsDesign williamsSquare
    rw [if_neg (by omega)]
    simp only [hlen, ne_eq, not_true_eq_false, if_false]
    rw [if_neg hnone, reversal_eq hn]
    simp [List.reduceOption, List.filterMap_map, Function.comp_def]
  · refine ⟨?_, ⟨?_, ?_, ?_⟩, fun i row => williamsRows_get⟩
    · rfl
    · intro i hi
      rw [williamsRows_length] at hi ⊢
      exact reversalIndex_lt hi
    · intro i hi
      exact reversalIndex_reversalIndex (williamsRows_length n ▸ hi)
    · intro i hi
      exact reversalIndex_ne hn (williamsRows_length n ▸ hi)

namespace Reversible
variable {d : Design} {partner : ℕ → ℕ} (h : Reversible d partner)
include h

theorem pairTypes_eq : d.pairTypes = pairTypes partner d.rows.length := by
  have hzip : d.reversal.zipIdx = (List.range d.rows.length).map fun i => (partner i, i) := by
    rw [h.reversal]
    apply List.ext_getElem?
    intro i
    rw [List.getElem?_zipIdx, List.getElem?_map, List.getElem?_map]
    by_cases hi : i < d.rows.length
    · rw [List.getElem?_range hi]
      simp
    · rw [List.getElem?_eq_none (by simpa using hi)]
      rfl
  unfold Design.pairTypes pairTypes
  rw [hzip, List.map_map]
  rfl

theorem reversalOf_ok {i : ℕ} (hi : i < d.rows.length) : d.reversalOf i = .ok (partner i) := by
  unfold Design.reversalOf
  rw [h.reversal, List.getElem?_map, List.getElem?_range hi]
  rfl

end Reversible

/-- The row of a number, where there is one. -/
def Design.rowD (d : Design) (i : ℕ) : List ℕ := d.rows.getD i []

theorem rowD_of_lt {d : Design} {i : ℕ} (hi : i < d.rows.length) : d.rows[i]? = some (d.rowD i) := by
  unfold Design.rowD
  rw [List.getD_eq_getElem?_getD, List.getElem?_eq_getElem hi]
  rfl

theorem row_ok {d : Design} {i : ℕ} (hi : i < d.rows.length) : d.row i = .ok (d.rowD i) := by
  unfold Design.row
  rw [rowD_of_lt hi]
  rfl

theorem map_rowD (d : Design) : (List.range d.rows.length).map d.rowD = d.rows := by
  apply List.ext_getElem?
  intro i
  rw [List.getElem?_map]
  by_cases hi : i < d.rows.length
  · rw [List.getElem?_range hi, rowD_of_lt hi]
    rfl
  · rw [List.getElem?_eq_none (by simpa using hi), List.getElem?_eq_none (by simpa using hi)]
    rfl

/-! ## The remainder -/

theorem fill_spec (preferred : List ℕ) (remaining : ℕ) (extra : List ℕ) (hextra : extra.Nodup) :
    (fill preferred remaining extra).2.Nodup ∧
    (∀ i ∈ extra, i ∈ (fill preferred remaining extra).2) ∧
    (fill preferred remaining extra).1 + (fill preferred remaining extra).2.length = remaining + extra.length ∧
    (∀ i ∈ (fill preferred remaining extra).2, i ∈ extra ∨ i ∈ preferred) ∧
    ((fill preferred remaining extra).1 = 0 ∨ ∀ i ∈ preferred, i ∈ (fill preferred remaining extra).2) := by
  induction preferred generalizing remaining extra with
  | nil => simp [fill, hextra]
  | cons index preferred ih =>
    by_cases hzero : remaining = 0
    · have hsame : fill (index :: preferred) remaining extra = (remaining, extra) := if_pos hzero
      rw [hsame]
      exact ⟨hextra, fun _ h => h, rfl, fun _ h => .inl h, .inl hzero⟩
    · by_cases hmem : index ∈ extra
      · simp only [fill, if_neg hzero, if_pos hmem]
        obtain ⟨hnodup, hkept, hlen, hfrom, hdone⟩ := ih remaining extra hextra
        refine ⟨hnodup, hkept, hlen, fun i hi => (hfrom i hi).imp_right (List.mem_cons_of_mem _), ?_⟩
        exact hdone.imp_right fun hall => List.forall_mem_cons.mpr ⟨hkept index hmem, hall⟩
      · simp only [fill, if_neg hzero, if_neg hmem]
        have hnext : (extra ++ [index]).Nodup := by
          rw [List.nodup_append]
          exact ⟨hextra, List.nodup_singleton _, fun a ha b hb heq => hmem (by simp_all)⟩
        obtain ⟨hnodup, hkept, hlen, hfrom, hdone⟩ := ih (remaining - 1) (extra ++ [index]) hnext
        refine ⟨hnodup, fun i hi => hkept i (List.mem_append_left _ hi), ?_, fun i hi => ?_, ?_⟩
        · rw [hlen, List.length_append, List.length_singleton]
          omega
        · rcases hfrom i hi with hbefore | hlater
          · rcases List.mem_append.mp hbefore with hold | hnew
            · exact .inl hold
            · exact .inr (by simp_all)
          · exact .inr (List.mem_cons_of_mem _ hlater)
        · exact hdone.imp_right fun hall => List.forall_mem_cons.mpr ⟨hkept index (by simp), hall⟩

theorem length_le_of_subset {xs ys : List ℕ} (hxs : xs.Nodup) (h : ∀ i ∈ xs, i ∈ ys) : xs.length ≤ ys.length :=
  (List.subperm_of_subset hxs h).length_le

/-- Places of a cyclic window that does not go round are distinct. -/
theorem window_nodup {n remaining : ℕ} (start : ℕ) {direction : ℤ} (hdirection : direction = 1 ∨ direction = -1)
    (hlt : remaining ≤ n) :
    ((List.range remaining).map fun offset : ℕ => ((start + direction * offset) % (n : ℤ)).toNat).Nodup := by
  refine List.Nodup.map_on ?_ List.nodup_range
  intro a ha b hb heq
  rw [List.mem_range] at ha hb
  have hn : (0 : ℤ) < n := by omega
  have hnonneg := fun x : ℤ => Int.emod_nonneg x (ne_of_gt hn)
  have hmod : (start + direction * a) % (n : ℤ) = (start + direction * b) % (n : ℤ) := by
    have hleft := Int.toNat_of_nonneg (hnonneg (start + direction * a))
    have hright := Int.toNat_of_nonneg (hnonneg (start + direction * b))
    rw [← hleft, ← hright]
    exact congrArg _ heq
  have hdvd : (n : ℤ) ∣ (a : ℤ) - b := by
    have hdvd := Int.dvd_of_emod_eq_zero (Int.emod_eq_emod_iff_emod_sub_eq_zero.mp hmod)
    rcases hdirection with rfl | rfl
    · rwa [show (start : ℤ) + 1 * a - (start + 1 * b) = a - b by omega] at hdvd
    · rw [show (start : ℤ) + -1 * a - (start + -1 * b) = -(a - b) by omega] at hdvd
      exact (dvd_neg).mp hdvd
  have hzero := Int.eq_zero_of_abs_lt_dvd hdvd (by rw [abs_lt]; omega)
  omega

section
variable (sha256 : ByteArray → List UInt8) (c : Coordinates)

theorem mapM_ok_of {α β ε : Type} {f : α → Except ε β} {g : α → β} {xs : List α} (h : ∀ x ∈ xs, f x = .ok (g x)) :
    xs.mapM f = .ok (xs.map g) := by
  rw [Fallible.mapM_ok, List.map_map]
  exact List.map_congr_left h

theorem safeCyclicRemainder_iff {n remaining : ℕ} {extra : List ℕ} :
    safeCyclicRemainder n remaining extra = true ↔ n % 2 = 1 ∧ extra = [] ∧ remaining ≤ n / 2 :=
  decide_eq_true_iff

/-- The rows that are asked for first: the whole design, or a safe window of it as long as the remainder. -/
theorem preferredRows_ok {d : Design} {n : ℕ} (remaining : ℕ) (extra : List ℕ) (hrows : d.rows.length = rowCount n)
    (hd : Reversible d (reversalIndex n)) :
    ∃ preferred, preferredRows sha256 c d n remaining extra = .ok preferred ∧
      (∀ i ∈ preferred, i < d.rows.length) ∧
      (safeCyclicRemainder n remaining extra = true → preferred.Nodup ∧ preferred.length = remaining) ∧
      (safeCyclicRemainder n remaining extra = false → ∀ i < d.rows.length, i ∈ preferred) := by
  have hle : n ≤ d.rows.length := by
    rw [hrows, rowCount]
    split <;> omega
  by_cases hsafe : safeCyclicRemainder n remaining extra = true
  · obtain ⟨hodd, -, hshort⟩ := safeCyclicRemainder_iff.mp hsafe
    let family : ℕ → ℕ := fun i =>
      if seed sha256 c ["williams_remainder_family"] % 2 = 1 then reversalIndex n i else i
    have hwindow : ∀ i ∈ translatedWindow sha256 c n remaining, i < n := by
      intro i hi
      obtain ⟨offset, -, rfl⟩ := List.mem_map.mp hi
      have hlt := Int.emod_lt_of_pos ((seed sha256 c ["williams_remainder_order"] % n : ℕ) +
        (if seed sha256 c ["williams_remainder_direction"] % 2 = 0 then 1 else -1 : ℤ) * offset) (show (0 : ℤ) < n by omega)
      omega
    have hfamily : ∀ i ∈ translatedWindow sha256 c n remaining,
        (if seed sha256 c ["williams_remainder_family"] % 2 = 1 then d.reversalOf i else .ok i) = .ok (family i) := by
      intro i hi
      simp only [family]
      split
      · exact hd.reversalOf_ok ((hwindow i hi).trans_le hle)
      · rfl
    refine ⟨(translatedWindow sha256 c n remaining).map family, ?_, ?_, ?_, ?_⟩
    · unfold preferredRows
      rw [if_pos hsafe, mapM_ok_of hfamily]
    · intro i hi
      obtain ⟨j, hj, rfl⟩ := List.mem_map.mp hi
      have hlt := (hwindow j hj).trans_le hle
      simp only [family]
      split
      · exact hd.pairing.lt j hlt
      · exact hlt
    · intro _
      refine ⟨List.Nodup.map_on ?_ ?_, by simp [translatedWindow]⟩
      · intro i hi j hj heq
        simp only [family] at heq
        split at heq
        · have hback := congrArg (reversalIndex n) heq
          rwa [hd.pairing.back i ((hwindow i hi).trans_le hle), hd.pairing.back j ((hwindow j hj).trans_le hle)] at hback
        · exact heq
      · have hdirection : (if seed sha256 c ["williams_remainder_direction"] % 2 = 0 then 1 else -1 : ℤ) = 1 ∨
            (if seed sha256 c ["williams_remainder_direction"] % 2 = 0 then 1 else -1 : ℤ) = -1 := by
          split
          · exact .inl rfl
          · exact .inr rfl
        unfold translatedWindow
        exact window_nodup (n := n) (seed sha256 c ["williams_remainder_order"] % n) hdirection
          (hshort.trans (Nat.div_le_self n 2))
    · intro hwide
      rw [hsafe] at hwide
      cases hwide
  · let base := seededPermutation sha256 (List.range n) (seed sha256 c ["williams_remainder_order"])
    have hbase : ∀ i, i ∈ base ↔ i < n := fun i =>
      (seededPermutation_perm sha256 (List.range n) _).mem_iff.trans List.mem_range
    have hmap : base.mapM d.reversalOf = .ok (base.map (reversalIndex n)) :=
      mapM_ok_of fun i hi => hd.reversalOf_ok (((hbase i).mp hi).trans_le hle)
    refine ⟨base ++ base.map (reversalIndex n), ?_, ?_, fun h => absurd h hsafe, ?_⟩
    · unfold preferredRows
      rw [if_neg hsafe]
      simp only [base] at hmap
      simp only [hmap]
      rfl
    · intro i hi
      rcases List.mem_append.mp hi with hi | hi
      · exact ((hbase i).mp hi).trans_le hle
      · obtain ⟨j, hj, rfl⟩ := List.mem_map.mp hi
        exact hd.pairing.lt j (((hbase j).mp hj).trans_le hle)
    · intro _ i hi
      by_cases hlow : i < n
      · exact List.mem_append_left _ ((hbase i).mpr hlow)
      · refine List.mem_append_right _ (List.mem_map.mpr ⟨reversalIndex n i, (hbase _).mpr ?_, hd.pairing.back i hi⟩)
        rw [hrows] at hi
        unfold rowCount at hi
        unfold reversalIndex
        split_ifs at * <;> omega

/-- The remainder is filled with distinct rows, the reserved pairs among them. -/
theorem extraRows_ok {d : Design} {n needed remainder : ℕ} (hrows : d.rows.length = rowCount n)
    (hd : Reversible d (reversalIndex n)) (hneeded : 2 * needed ≤ remainder) (hlt : remainder < d.rows.length) :
    ∃ extra taken, extraRows sha256 c d n needed remainder = .ok extra ∧ extra.1.Nodup ∧
      (∀ i ∈ extra.1, i < d.rows.length) ∧ extra.1.length = remainder ∧
      taken.Nodup ∧ (∀ p ∈ taken, p ∈ d.pairTypes) ∧ taken.length = needed ∧ (∀ i ∈ members taken, i ∈ extra.1) := by
  have hperm := seededPermutation_perm sha256 d.pairTypes (seed sha256 c ["williams_pair_type_order"])
  obtain ⟨taken, htaken⟩ : ∃ taken, taken =
    (seededPermutation sha256 d.pairTypes (seed sha256 c ["williams_pair_type_order"])).take needed := ⟨_, rfl⟩
  have hmemTaken : ∀ p ∈ taken, p ∈ d.pairTypes := by
    intro p hp
    rw [htaken] at hp
    exact hperm.mem_iff.mp (List.mem_of_mem_take hp)
  have hnodup : taken.Nodup := by
    rw [htaken]
    exact (hperm.nodup_iff.mpr (sortedSet_nodup _)).sublist (List.take_sublist _ _)
  have htwo := two_mul_pairTypes hd.pairing
  rw [← hd.pairTypes_eq] at htwo
  have hlen : taken.length = needed := by
    rw [htaken, List.length_take, hperm.length_eq]
    omega
  have hforced : (members taken).Nodup :=
    members_nodup hd.pairing hnodup fun p hp => hd.pairTypes_eq ▸ hmemTaken p hp
  have hforcedLt : ∀ i ∈ members taken, i < d.rows.length := by
    intro i hi
    obtain ⟨p, hp, hcase⟩ := mem_members.mp hi
    have hpair := pair_cases hd.pairing (hd.pairTypes_eq ▸ hmemTaken p hp)
    omega
  have hforcedLength : (members taken).length = 2 * needed := by rw [members_length, hlen]
  obtain ⟨preferred, hpreferred, hpreferredLt, hsafe, hwide⟩ :=
    preferredRows_ok sha256 c (remainder - (members taken).length) (members taken) hrows hd
  obtain ⟨hfilled, hkept, hcount, hfrom, hdone⟩ :=
    fill_spec preferred (remainder - (members taken).length) (members taken) hforced
  have hzero : (fill preferred (remainder - (members taken).length) (members taken)).1 = 0 := by
    rcases hdone with hzero | hall
    · exact hzero
    · cases hcase : safeCyclicRemainder n (remainder - (members taken).length) (members taken) with
      | true =>
        obtain ⟨hpn, hpl⟩ := hsafe hcase
        have hle := length_le_of_subset hpn hall
        have hempty := (safeCyclicRemainder_iff.mp hcase).2.1
        rw [hpl] at hle
        rw [hempty, List.length_nil] at hcount hle
        rw [hempty, List.length_nil]
        omega
      | false =>
        have hle := length_le_of_subset List.nodup_range fun i hi => hall i (hwide hcase i (List.mem_range.mp hi))
        rw [List.length_range] at hle
        omega
  refine ⟨((fill preferred (remainder - (members taken).length) (members taken)).2,
    safeCyclicRemainder n (remainder - (members taken).length) (members taken)), taken, ?_, hfilled, ?_, ?_, hnodup,
    hmemTaken, hlen, hkept⟩
  · unfold extraRows
    simp only [← htaken, hpreferred, Except.map, hzero, if_true]
  · intro i hi
    rcases hfrom i hi with hforced | hpref
    · exact hforcedLt i hforced
    · exact hpreferredLt i hpref
  · change (fill preferred (remainder - (members taken).length) (members taken)).2.length = remainder
    omega

end

/-! ## The pool -/

theorem count_flatMap_replicate {α : Type} [BEq α] [LawfulBEq α] [DecidableEq α] {xs : List α} (hxs : xs.Nodup) (f : α → ℕ) (q : α) :
    (xs.flatMap fun x => List.replicate (f x) x).count q = if q ∈ xs then f q else 0 := by
  induction xs with
  | nil => simp
  | cons x xs ih =>
    obtain ⟨hx, hrest⟩ := List.nodup_cons.mp hxs
    rw [List.flatMap_cons, List.count_append, ih hrest, List.count_replicate]
    by_cases hq : q = x
    · subst hq
      simp [hx]
    · simp [hq, Ne.symm hq]

theorem count_copies (k size i : ℕ) :
    ((List.replicate k (List.range size)).flatten).count i = if i < size then k else 0 := by
  induction k with
  | zero => simp
  | succ k ih =>
    rw [List.replicate_succ, List.flatten_cons, List.count_append, ih]
    by_cases hi : i < size
    · have hone := List.count_eq_one_of_mem List.nodup_range (List.mem_range.mpr hi)
      rw [hone, if_pos hi, if_pos hi]
      omega
    · have hnone := List.count_eq_zero_of_not_mem (fun h => hi (List.mem_range.mp h) : i ∉ List.range size)
      rw [hnone, if_neg hi, if_neg hi]

theorem copies_length {α : Type} (k : ℕ) (xs : List α) : ((List.replicate k xs).flatten).length = k * xs.length := by
  simp

/-- Slots for every pair as often as the cycles, and once more for the pairs taken. -/
theorem slots_length (pairs taken : List (ℕ × ℕ)) (f : ℕ × ℕ → ℕ) (k : ℕ)
    (h : ∀ p ∈ pairs, k + (if p ∈ taken then 1 else 0) ≤ f p) :
    k * pairs.length + (pairs.filter (· ∈ taken)).length ≤ (pairs.flatMap fun p => List.replicate (f p) p).length := by
  induction pairs with
  | nil => simp
  | cons p pairs ih =>
    obtain ⟨hp, hrest⟩ := List.forall_mem_cons.mp h
    have hlater := ih hrest
    rw [List.flatMap_cons, List.length_append, List.length_replicate, List.length_cons, Nat.mul_add, Nat.mul_one]
    by_cases hmem : p ∈ taken
    · rw [List.filter_cons_of_pos (by simpa using hmem), List.length_cons]
      rw [if_pos hmem] at hp
      omega
    · rw [List.filter_cons_of_neg (by simpa using hmem)]
      rw [if_neg hmem] at hp
      omega

theorem pairSlots_length {d : Design} {partner : ℕ → ℕ} (hd : Reversible d partner) (fullCycles : ℕ) {extra : List ℕ}
    {taken : List (ℕ × ℕ)} (hnodup : taken.Nodup) (htaken : ∀ p ∈ taken, p ∈ d.pairTypes)
    (hextra : ∀ i ∈ members taken, i ∈ extra) :
    fullCycles * d.pairTypes.length + taken.length ≤
      (d.pairSlots fun i => ((d.rowPool fullCycles extra).count i : ℤ)).length := by
  have hfilter : taken.length ≤ (d.pairTypes.filter (· ∈ taken)).length := by
    apply (List.subperm_of_subset hnodup _).length_le
    intro p hp
    exact List.mem_filter.mpr ⟨htaken p hp, by simpa using hp⟩
  have hslots := slots_length d.pairTypes taken
    (fun p => (min ((d.rowPool fullCycles extra).count p.1 : ℤ) ((d.rowPool fullCycles extra).count p.2)).toNat)
    fullCycles ?_
  · change _ ≤ (d.pairTypes.flatMap fun p => List.replicate
      (min ((d.rowPool fullCycles extra).count p.1 : ℤ) ((d.rowPool fullCycles extra).count p.2)).toNat p).length
    omega
  · intro p hp
    rw [hd.pairTypes_eq] at hp
    obtain ⟨hlt, hsize, -⟩ := pair_cases hd.pairing hp
    have hfirst : (d.rowPool fullCycles extra).count p.1 = fullCycles + extra.count p.1 := by
      rw [Design.rowPool, List.count_append, count_copies, if_pos (by omega)]
    have hsecond : (d.rowPool fullCycles extra).count p.2 = fullCycles + extra.count p.2 := by
      rw [Design.rowPool, List.count_append, count_copies, if_pos hsize]
    simp only [hfirst, hsecond]
    by_cases hmem : p ∈ taken
    · have hone : 0 < extra.count p.1 :=
        List.count_pos_iff.mpr (hextra p.1 (mem_members.mpr ⟨p, hmem, .inl rfl⟩))
      have htwo : 0 < extra.count p.2 :=
        List.count_pos_iff.mpr (hextra p.2 (mem_members.mpr ⟨p, hmem, .inr rfl⟩))
      rw [if_pos hmem]
      omega
    · rw [if_neg hmem]
      omega

/-! ## The tasks -/

theorem zipStrict_ok {α β : Type} {xs : List α} {ys : List β} (h : xs.length = ys.length) :
    zipStrict xs ys = .ok (xs.zip ys) := if_pos h

section
variable (sha256 : ByteArray → List UInt8) (c : Coordinates)

theorem ranked_perm (label : String) (tasks : List String) : (ranked sha256 c label tasks).Perm tasks :=
  List.perm_insertionSort _ _

/-- What a paired task is assigned. -/
def pairEntries (d : Design) (e : String × ℕ × ℕ) : List ((String × ℕ) × List ℕ) :=
  [((e.1, 0), d.rowD (oriented sha256 c e.1 e.2).1), ((e.1, 1), d.rowD (oriented sha256 c e.1 e.2).2)]

theorem oriented_perm (taskId : String) (pair : ℕ × ℕ) :
    [(oriented sha256 c taskId pair).1, (oriented sha256 c taskId pair).2].Perm [pair.1, pair.2] := by
  unfold oriented
  split
  · exact List.Perm.refl _
  · exact List.Perm.swap _ _ _

theorem oriented_lt {d : Design} {partner : ℕ → ℕ} (hd : Reversible d partner) (taskId : String) {pair : ℕ × ℕ}
    (hpair : pair ∈ d.pairTypes) :
    (oriented sha256 c taskId pair).1 < d.rows.length ∧ (oriented sha256 c taskId pair).2 < d.rows.length ∧
      (oriented sha256 c taskId pair).2 = partner (oriented sha256 c taskId pair).1 := by
  obtain ⟨hlt, hsize, hsecond, hfirst⟩ := pair_cases hd.pairing (hd.pairTypes_eq ▸ hpair)
  unfold oriented
  split
  · exact ⟨by omega, hsize, hsecond⟩
  · exact ⟨hsize, by simp only [Prod.snd_swap]; omega, hfirst⟩

theorem assignPair_ok {d : Design} {partner : ℕ → ℕ} (hd : Reversible d partner) (s : Assigning)
    {e : String × ℕ × ℕ} (he : e.2 ∈ d.pairTypes) :
    assignPair sha256 c d s e = .ok {
      available := fun i => s.available i - (members [e.2]).count i
      assigned := (pairEntries sha256 c d e).foldl (fun a x => a.set x.1 x.2) s.assigned } := by
  obtain ⟨hprimary, hsecond, hpartner⟩ := oriented_lt sha256 c hd e.1 he
  have hreversed : d.rowD (oriented sha256 c e.1 e.2).2 = (d.rowD (oriented sha256 c e.1 e.2).1).reverse := by
    have hrow := hd.reversed _ _ (rowD_of_lt hprimary)
    rw [← hpartner, rowD_of_lt hsecond] at hrow
    exact Option.some.inj hrow
  have hcount : ∀ i, [(oriented sha256 c e.1 e.2).1, (oriented sha256 c e.1 e.2).2].count i = (members [e.2]).count i :=
    fun i => (oriented_perm sha256 c e.1 e.2).count_eq i
  unfold assignPair
  simp only [row_ok hprimary, row_ok hsecond, hreversed, ne_eq, not_true_eq_false, if_false, hcount, bind, Except.bind]
  rw [pairEntries, hreversed]
  rfl

/-- The pairs taken leave the pool, and their tasks are assigned. -/
theorem foldlM_assignPair {d : Design} {partner : ℕ → ℕ} (hd : Reversible d partner) (es : List (String × ℕ × ℕ))
    (hes : ∀ e ∈ es, e.2 ∈ d.pairTypes) (s : Assigning) :
    es.foldlM (assignPair sha256 c d) s = .ok {
      available := fun i => s.available i - (members (es.map Prod.snd)).count i
      assigned := (es.flatMap (pairEntries sha256 c d)).foldl (fun a x => a.set x.1 x.2) s.assigned } := by
  induction es generalizing s with
  | nil => simp [members, pure, Except.pure]
  | cons e es ih =>
    obtain ⟨he, hrest⟩ := List.forall_mem_cons.mp hes
    rw [List.foldlM_cons, assignPair_ok sha256 c hd s he]
    simp only [bind, Except.bind]
    rw [ih hrest, List.flatMap_cons, List.foldl_append]
    congr 2
    funext i
    have hmembers : members ((e :: es).map Prod.snd) = members [e.2] ++ members (es.map Prod.snd) := rfl
    rw [hmembers, List.count_append]
    push_cast
    omega

theorem foldlM_assignSingle {d : Design} (es : List (String × ℕ)) (hes : ∀ e ∈ es, e.2 < d.rows.length)
    (assigned : Assignments) :
    es.foldlM (assignSingle d) assigned =
      .ok ((es.map fun e => ((e.1, 0), d.rowD e.2)).foldl (fun a x => a.set x.1 x.2) assigned) := by
  induction es generalizing assigned with
  | nil => rfl
  | cons e es ih =>
    obtain ⟨he, hrest⟩ := List.forall_mem_cons.mp hes
    rw [List.foldlM_cons, assignSingle, row_ok he]
    exact ih hrest _

/-- A pair is taken no more often than its rows are in the pool. -/
theorem members_count_le {d : Design} {partner : ℕ → ℕ} (hd : Reversible d partner) {pool : List ℕ}
    {chosen : List (ℕ × ℕ)} (hchosen : ∀ p, chosen.count p ≤ (d.pairSlots fun i => (pool.count i : ℤ)).count p)
    (hmem : ∀ p ∈ chosen, p ∈ d.pairTypes) (i : ℕ) : (members chosen).count i ≤ pool.count i := by
  have hpairs : ∀ p ∈ chosen, p ∈ pairTypes partner d.rows.length := fun p hp => hd.pairTypes_eq ▸ hmem p hp
  by_cases hi : i ∈ members chosen
  · obtain ⟨p, hp, hcase⟩ := mem_members.mp hi
    have hcount := hchosen p
    have hslots : (d.pairSlots fun i => (pool.count i : ℤ)).count p =
        (min (pool.count p.1 : ℤ) (pool.count p.2)).toNat :=
      (count_flatMap_replicate (sortedSet_nodup _) _ p).trans (if_pos (hmem p hp))
    rw [count_members hd.pairing hpairs, pairOf_member hd.pairing (hpairs p hp) hcase]
    rcases hcase with rfl | rfl <;> omega
  · rw [List.count_eq_zero_of_not_mem hi]
    exact Nat.zero_le _

theorem remainingRows_perm {d : Design} {pool used : List ℕ} (hpool : ∀ i ∈ pool, i < d.rows.length)
    (hused : ∀ i, used.count i ≤ pool.count i) :
    (used ++ d.remainingRows fun i => (pool.count i : ℤ) - used.count i).Perm pool := by
  rw [List.perm_iff_count]
  intro i
  have hrest : (d.remainingRows fun i => (pool.count i : ℤ) - used.count i).count i =
      if i ∈ List.range d.rows.length then ((pool.count i : ℤ) - used.count i).toNat else 0 :=
    count_flatMap_replicate List.nodup_range _ i
  have hle := hused i
  rw [List.count_append, hrest]
  by_cases hi : i < d.rows.length
  · rw [if_pos (List.mem_range.mpr hi)]
    omega
  · have hzero : pool.count i = 0 := List.count_eq_zero_of_not_mem fun h => hi (hpool i h)
    rw [if_neg (fun h => hi (List.mem_range.mp h))]
    omega

/-- The values of the pairs are the rows of the pairs' members. -/
theorem pairEntries_values (d : Design) (es : List (String × ℕ × ℕ)) :
    ((es.flatMap (pairEntries sha256 c d)).map Prod.snd).Perm ((members (es.map Prod.snd)).map d.rowD) := by
  induction es with
  | nil => exact List.Perm.refl _
  | cons e es ih =>
    have hmembers : members ((e :: es).map Prod.snd) = [e.2.1, e.2.2] ++ members (es.map Prod.snd) := rfl
    rw [List.flatMap_cons, List.map_append, hmembers, List.map_append]
    exact ((oriented_perm sha256 c e.1 e.2).map d.rowD).append ih

theorem pairEntries_keys (d : Design) (es : List (String × ℕ × ℕ)) :
    (es.flatMap (pairEntries sha256 c d)).map Prod.fst = (es.map Prod.fst).flatMap fun t => [(t, 0), (t, 1)] := by
  induction es with
  | nil => rfl
  | cons e es ih =>
    rw [List.flatMap_cons, List.map_append, ih]
    rfl

theorem length_filter_notMem {tasks second : List String} (htasks : tasks.Nodup) (hsecond : second.Nodup)
    (hsub : ∀ t ∈ second, t ∈ tasks) :
    (tasks.filter (· ∉ second)).length + second.length = tasks.length := by
  have hin : (tasks.filter (· ∈ second)).Perm second := by
    refine (List.perm_ext_iff_of_nodup (htasks.filter _) hsecond).mpr fun t => ?_
    simp only [List.mem_filter, decide_eq_true_eq]
    exact ⟨And.right, fun h => ⟨hsub t h, h⟩⟩
  have hsplit := List.length_eq_length_filter_add (l := tasks) fun t => decide (t ∈ second)
  rw [hin.length_eq] at hsplit
  have hnot : (tasks.filter (· ∉ second)).length = (tasks.filter fun t => !decide (t ∈ second)).length := by
    simp only [decide_not]
  omega

/-- The keys of paired tasks and of single ones. -/
theorem assigned_keys_nodup {paired single : List String} (hpaired : paired.Nodup) (hsingle : single.Nodup)
    (hdisjoint : ∀ t ∈ single, t ∉ paired) :
    ((paired.flatMap fun t => [(t, 0), (t, 1)]) ++ single.map fun t => (t, (0 : ℕ))).Nodup := by
  rw [List.nodup_append]
  refine ⟨?_, hsingle.map fun a b h => (Prod.mk.inj h).1, ?_⟩
  · rw [List.nodup_flatMap]
    refine ⟨fun t _ => by simp, hpaired.imp fun {a b} hne => ?_⟩
    intro x ha hb
    simp only [List.mem_cons, List.not_mem_nil, or_false] at ha hb
    rcases ha with rfl | rfl <;> rcases hb with h | h <;> exact hne (Prod.mk.inj h).1
  · intro x hx y hy heq
    obtain ⟨t, ht, hcase⟩ := List.mem_flatMap.mp hx
    obtain ⟨u, hu, rfl⟩ := List.mem_map.mp hy
    subst heq
    simp only [List.mem_cons, Prod.mk.injEq, List.not_mem_nil, or_false] at hcase
    have htu : u = t := by
      rcases hcase with h | h
      · exact h.1
      · exact h.1
    exact hdisjoint u hu (htu ▸ ht)

/-- Every task and replicate is assigned; the values are the rows of the pool. -/
theorem assignRows_ok {d : Design} {partner : ℕ → ℕ} (hd : Reversible d partner) {pool : List ℕ}
    {tasks second : List String} (hpool : ∀ i ∈ pool, i < d.rows.length) (htasks : tasks.Nodup)
    (hsecond : second.Nodup) (hsub : ∀ t ∈ second, t ∈ tasks)
    (hslots : second.length ≤ (d.pairSlots fun i => (pool.count i : ℤ)).length)
    (hlen : pool.length = tasks.length + second.length) :
    ∃ assigned, assignRows sha256 c d pool tasks second = .ok assigned ∧
      (∀ t r, (t, r) ∈ assigned.keys ↔ t ∈ tasks ∧ r = 0 ∨ t ∈ second ∧ r = 1) ∧
      (∀ t ∈ second, ∃ row, assigned.get? (t, 0) = some row ∧ assigned.get? (t, 1) = some row.reverse) ∧
      assigned.values.Perm (pool.map d.rowD) := by
  have hslotsPerm := seededPermutation_perm sha256 (d.pairSlots fun i => (pool.count i : ℤ))
    (seed sha256 c ["williams_pair_slot_order"])
  obtain ⟨slots, hslotsEq⟩ : ∃ slots, slots = seededPermutation sha256 (d.pairSlots fun i => (pool.count i : ℤ))
    (seed sha256 c ["williams_pair_slot_order"]) := ⟨_, rfl⟩
  rw [← hslotsEq] at hslotsPerm
  have hpairedPerm := ranked_perm sha256 c "williams_paired_task_rank" second
  obtain ⟨paired, hpairedEq⟩ : ∃ paired, paired = ranked sha256 c "williams_paired_task_rank" second := ⟨_, rfl⟩
  rw [← hpairedEq] at hpairedPerm
  have hchosenLength : paired.length = (slots.take paired.length).length := by
    rw [List.length_take, hpairedPerm.length_eq, hslotsPerm.length_eq]
    omega
  have hchosenMem : ∀ p ∈ slots.take paired.length, p ∈ d.pairTypes := by
    intro p hp
    obtain ⟨q, hq, hrep⟩ := List.mem_flatMap.mp (hslotsPerm.mem_iff.mp (List.mem_of_mem_take hp))
    rwa [(List.mem_replicate.mp hrep).2]
  have hchosenCount : ∀ p, (slots.take paired.length).count p ≤
      (d.pairSlots fun i => (pool.count i : ℤ)).count p := fun p =>
    ((List.take_sublist _ _).count_le p).trans_eq (hslotsPerm.count_eq p)
  have hused := members_count_le hd hchosenCount hchosenMem
  have hrest := remainingRows_perm hpool hused
  obtain ⟨chosen, hchosenEq⟩ : ∃ chosen, chosen = slots.take paired.length := ⟨_, rfl⟩
  rw [← hchosenEq] at hchosenLength hchosenMem hused hrest
  have hfst : (paired.zip chosen).map Prod.fst = paired := List.map_fst_zip (Nat.le_of_eq hchosenLength)
  have hsnd : (paired.zip chosen).map Prod.snd = chosen := List.map_snd_zip (Nat.le_of_eq hchosenLength.symm)
  have hpairs : ∀ e ∈ paired.zip chosen, e.2 ∈ d.pairTypes := by
    intro e he
    exact hchosenMem e.2 (hsnd ▸ List.mem_map_of_mem he)
  have hremainingPerm := seededPermutation_perm sha256
    (d.remainingRows fun i => (pool.count i : ℤ) - (members chosen).count i)
    (seed sha256 c ["williams_single_row_order"])
  obtain ⟨remaining, hremainingEq⟩ : ∃ remaining, remaining = seededPermutation sha256
    (d.remainingRows fun i => (pool.count i : ℤ) - (members chosen).count i)
    (seed sha256 c ["williams_single_row_order"]) := ⟨_, rfl⟩
  rw [← hremainingEq] at hremainingPerm
  have hsinglePerm := ranked_perm sha256 c "williams_single_task_rank" (tasks.filter (· ∉ second))
  obtain ⟨single, hsingleEq⟩ : ∃ single,
    single = ranked sha256 c "williams_single_task_rank" (tasks.filter (· ∉ second)) := ⟨_, rfl⟩
  rw [← hsingleEq] at hsinglePerm
  have hpoolPerm : (members chosen ++ remaining).Perm pool := (hremainingPerm.append_left _).trans hrest
  have hsingleLength : single.length = remaining.length := by
    have htotal := hpoolPerm.length_eq
    have hcount := length_filter_notMem htasks hsecond hsub
    rw [List.length_append, members_length, ← hchosenLength, hpairedPerm.length_eq] at htotal
    rw [← hsinglePerm.length_eq] at hcount
    omega
  have hsingles : ∀ e ∈ single.zip remaining, e.2 < d.rows.length := by
    intro e he
    exact hpool e.2 (hpoolPerm.mem_iff.mp (List.mem_append_right _ (List.of_mem_zip he).2))
  have hsingleFst : (single.zip remaining).map Prod.fst = single := List.map_fst_zip (Nat.le_of_eq hsingleLength)
  have hsingleSnd : (single.zip remaining).map Prod.snd = remaining :=
    List.map_snd_zip (Nat.le_of_eq hsingleLength.symm)
  obtain ⟨entries, hentriesEq⟩ : ∃ entries, entries = (paired.zip chosen).flatMap (pairEntries sha256 c d) ++
    (single.zip remaining).map fun e => ((e.1, 0), d.rowD e.2) := ⟨_, rfl⟩
  have hkeys : entries.map Prod.fst = (paired.flatMap fun t => [(t, 0), (t, 1)]) ++ single.map fun t => (t, 0) := by
    rw [hentriesEq, List.map_append, pairEntries_keys, hfst, List.map_map]
    congr 1
    rw [← hsingleFst, List.map_map]
    simp only [hsingleFst]
    rfl
  have hmemPaired : ∀ t, t ∈ paired ↔ t ∈ second := fun t => hpairedPerm.mem_iff
  have hmemSingle : ∀ t, t ∈ single ↔ t ∈ tasks ∧ t ∉ second := by
    intro t
    rw [hsinglePerm.mem_iff, List.mem_filter, decide_eq_true_eq]
  have hnodup : (entries.map Prod.fst).Nodup := by
    rw [hkeys]
    refine assigned_keys_nodup (hpairedPerm.nodup_iff.mpr hsecond) (hsinglePerm.nodup_iff.mpr (htasks.filter _)) ?_
    intro t ht
    rw [hmemPaired]
    exact ((hmemSingle t).mp ht).2
  refine ⟨.ofPairs entries, ?_, ?_, ?_, ?_⟩
  · unfold assignRows
    simp only [← hslotsEq, ← hpairedEq, ← hsingleEq, ← hchosenEq]
    rw [if_neg (by rw [hslotsPerm.length_eq]; omega), zipStrict_ok hchosenLength]
    simp only [bind, Except.bind]
    rw [foldlM_assignPair sha256 c hd _ hpairs]
    simp only [hsnd, ← hremainingEq]
    rw [if_neg (by simpa using hsingleLength.symm), zipStrict_ok hsingleLength]
    simp only []
    rw [foldlM_assignSingle _ hsingles, ← List.foldl_append, ← hentriesEq]
    rfl
  · intro t r
    rw [Dict.mem_keys_ofPairs, hkeys]
    simp only [List.mem_append, List.mem_flatMap, List.mem_cons, List.mem_map, Prod.mk.injEq, List.not_mem_nil,
      or_false, hmemPaired, hmemSingle]
    constructor
    · rintro (⟨u, hu, ⟨rfl, rfl⟩ | ⟨rfl, rfl⟩⟩ | ⟨u, ⟨hu, -⟩, rfl, rfl⟩)
      · exact .inl ⟨hsub _ hu, rfl⟩
      · exact .inr ⟨hu, rfl⟩
      · exact .inl ⟨hu, rfl⟩
    · rintro (⟨ht, rfl⟩ | ⟨ht, rfl⟩)
      · by_cases hsec : t ∈ second
        · exact .inl ⟨t, hsec, .inl ⟨rfl, rfl⟩⟩
        · exact .inr ⟨t, ⟨ht, hsec⟩, rfl, rfl⟩
      · exact .inl ⟨t, ht, .inr ⟨rfl, rfl⟩⟩
  · intro t ht
    have htask : t ∈ (paired.zip chosen).map Prod.fst := by
      rw [hfst]
      exact (hmemPaired t).mpr ht
    obtain ⟨e, he, rfl⟩ := List.mem_map.mp htask
    obtain ⟨hprimary, hlt, hpartner⟩ := oriented_lt sha256 c hd e.1 (hpairs e he)
    have hreversed : d.rowD (oriented sha256 c e.1 e.2).2 = (d.rowD (oriented sha256 c e.1 e.2).1).reverse := by
      have hrow := hd.reversed _ _ (rowD_of_lt hprimary)
      rw [← hpartner, rowD_of_lt hlt] at hrow
      exact Option.some.inj hrow
    have hentry : ∀ x ∈ pairEntries sha256 c d e, x ∈ entries := by
      intro x hx
      rw [hentriesEq]
      exact List.mem_append_left _ (List.mem_flatMap.mpr ⟨e, he, hx⟩)
    refine ⟨d.rowD (oriented sha256 c e.1 e.2).1, ?_, ?_⟩
    · exact (Dict.get?_ofPairs_of_nodup hnodup).mpr (hentry _ (by simp [pairEntries]))
    · rw [← hreversed]
      exact (Dict.get?_ofPairs_of_nodup hnodup).mpr (hentry _ (by simp [pairEntries]))
  · unfold Dict.values
    rw [Dict.entries_ofPairs_of_nodup hnodup, hentriesEq, List.map_append]
    have hsingleValues : ((single.zip remaining).map fun e => ((e.1, 0), d.rowD e.2)).map Prod.snd =
        remaining.map d.rowD := by
      rw [List.map_map, ← hsingleSnd, List.map_map]
      simp only [hsingleSnd]
      rfl
    rw [hsingleValues]
    have hvalues := pairEntries_values sha256 c d (paired.zip chosen)
    rw [hsnd] at hvalues
    have hall := hvalues.append_right (remaining.map d.rowD)
    rw [← List.map_append] at hall
    exact hall.trans (hpoolPerm.map _)

/-! ## The digest of an assignment -/

theorem validateItems_ints (path : PyStr) (i : ℕ) (xs : List ℕ) :
    validateItems path i (xs.map fun x : ℕ => .int x) = .ok (xs.map fun x : ℕ => .int x) := by
  induction xs generalizing i with
  | nil => rfl
  | cons x xs ih => simp only [List.map_cons, validateItems, validate, ih]

theorem validateMembers_rows (path : PyStr) (ms : List (PyStr × List ℕ)) :
    validateMembers path (ms.map fun e => (.str e.1, .list (e.2.map fun x : ℕ => .int x))) =
      .ok (ms.map fun e => (e.1, .arr (e.2.map fun x : ℕ => .int x))) := by
  induction ms with
  | nil => rfl
  | cons e ms ih => simp only [List.map_cons, validateMembers, validate, validateItems_ints, ih]

theorem keysEncodable_ints (xs : List ℕ) : keysEncodableItems (xs.map fun x : ℕ => .int x) = true := by
  induction xs with
  | nil => rfl
  | cons x xs ih => simp only [List.map_cons, keysEncodableItems, keysEncodable, ih, Bool.true_and]

theorem keysEncodable_rows {ms : List (PyStr × List ℕ)} (h : ∀ e ∈ ms, Encodable e.1) :
    keysEncodableMembers (ms.map fun e => (e.1, .arr (e.2.map fun x : ℕ => .int x))) = true := by
  induction ms with
  | nil => rfl
  | cons e ms ih =>
    obtain ⟨he, hrest⟩ := List.forall_mem_cons.mp h
    simp only [List.map_cons, keysEncodableMembers, keysEncodable, keysEncodable_ints, ih hrest, he, decide_true,
      Bool.and_true]

theorem canonicalJson_rows (floats : FloatText) {ms : List (PyStr × List ℕ)} (h : ∀ e ∈ ms, Encodable e.1) :
    ∃ raw, canonicalJson floats (.dict (ms.map fun e => (.str e.1, .list (e.2.map fun x : ℕ => .int x)))) = .ok raw := by
  have hvalid : validate [] (.dict (ms.map fun e => (.str e.1, .list (e.2.map fun x : ℕ => .int x)))) =
      .ok (.obj (ms.map fun e => (e.1, .arr (e.2.map fun x : ℕ => .int x)))) := by
    rw [validate, validateMembers_rows]
  have hkeys : keysEncodable (.obj (ms.map fun e => (e.1, .arr (e.2.map fun x : ℕ => .int x)))) = true :=
    keysEncodable_rows h
  unfold canonicalJson
  rw [hvalid]
  exact ⟨_, if_pos hkeys⟩

theorem assignmentDocument_canonical (floats : FloatText) (assigned : Assignments) :
    ∃ raw, canonicalJson floats (assignmentDocument assigned) = .ok raw := by
  apply canonicalJson_rows
  intro e he
  have hkey := Dict.mem_keys_ofPairs.mp (List.mem_map.mpr ⟨e, he, rfl⟩)
  rw [List.map_map] at hkey
  obtain ⟨x, -, hx⟩ := List.mem_map.mp hkey
  rw [← hx]
  exact pyStr_encodable _

/-! ## The whole assignment -/

/-- Complete copies of the design, and distinct rows of it beside them. -/
def CompleteCopies (rows values : List (List ℕ)) : Prop :=
  ∃ copies extra, extra.Nodup ∧ (∀ row ∈ extra, row ∈ rows) ∧
    values.Perm ((List.replicate copies rows).flatten ++ extra)

theorem rowPool_copies {d : Design} (fullCycles : ℕ) {extra : List ℕ} (hrows : d.rows.Nodup) (hextra : extra.Nodup)
    (hlt : ∀ i ∈ extra, i < d.rows.length) : CompleteCopies d.rows ((d.rowPool fullCycles extra).map d.rowD) := by
  refine ⟨fullCycles, extra.map d.rowD, ?_, ?_, ?_⟩
  · refine hextra.map_on fun i hi j hj heq => ?_
    have hsame : d.rows[i]? = d.rows[j]? := by rw [rowD_of_lt (hlt i hi), rowD_of_lt (hlt j hj), heq]
    exact (List.getElem?_inj (hlt i hi) hrows).mp hsame
  · intro row hrow
    obtain ⟨i, hi, rfl⟩ := List.mem_map.mp hrow
    exact List.mem_of_getElem? (rowD_of_lt (hlt i hi))
  · rw [Design.rowPool, List.map_append, List.map_flatten, List.map_replicate, map_rowD]

theorem map_fst_ok {α β ε : Type} {run : Except ε (α × β)} {a : α} (h : run.map Prod.fst = .ok a) :
    ∃ b, run = .ok (a, b) := by
  cases run with
  | error e => cases h
  | ok result => exact ⟨result.2, by rw [← Except.ok.inj h]⟩

/-- Nothing is refused; each task and replicate runs a permutation of the arms, a second replicate the
    reversal of the first; all the rows together are complete copies of the design and distinct rows. -/
theorem williams_assignment_total (floats : FloatText) {taskIds secondSeedTasks : List String} {armCount : ℕ}
    (htasks : taskIds.Nodup) (hsecond : secondSeedTasks.Nodup) (hsub : ∀ t ∈ secondSeedTasks, t ∈ taskIds)
    (harms : 2 ≤ armCount) :
    ∃ assigned notes,
      balancedWilliamsAssignments sha256 c floats taskIds secondSeedTasks armCount = .ok (assigned, notes) ∧
      (∀ t r, (t, r) ∈ assigned.keys ↔ t ∈ taskIds ∧ r = 0 ∨ t ∈ secondSeedTasks ∧ r = 1) ∧
      (∀ row ∈ assigned.values, row.Perm (List.range armCount)) ∧
      (∀ t ∈ secondSeedTasks, ∃ row, assigned.get? (t, 0) = some row ∧ assigned.get? (t, 1) = some row.reverse) ∧
      CompleteCopies (williamsRows armCount) assigned.values := by
  obtain ⟨d, hdesign, hrows, hd⟩ := williamsDesign_ok harms
  have hcount : d.rows.length = rowCount armCount := by rw [hrows, williamsRows_length]
  have hpositive : 0 < d.rows.length := by
    rw [hcount, rowCount]
    split <;> omega
  have htwo := two_mul_pairTypes hd.pairing
  rw [← hd.pairTypes_eq] at htwo
  have hle : secondSeedTasks.length ≤ taskIds.length := (List.subperm_of_subset hsecond hsub).length_le
  obtain ⟨total, htotal⟩ : ∃ total, total = taskIds.length + secondSeedTasks.length := ⟨_, rfl⟩
  have hdiv := Nat.div_add_mod total d.rows.length
  have hmod := Nat.mod_lt total hpositive
  -- twice the tasks that take a pair are at most all blocks, so their pairs fit
  have hneeded : 2 * (secondSeedTasks.length - total / d.rows.length * d.pairTypes.length) ≤ total % d.rows.length := by
    have hcycles : d.rows.length * (total / d.rows.length) = 2 * (total / d.rows.length * d.pairTypes.length) := by
      calc d.rows.length * (total / d.rows.length)
          = 2 * d.pairTypes.length * (total / d.rows.length) := by rw [htwo]
        _ = 2 * (total / d.rows.length * d.pairTypes.length) := by ring
    omega
  obtain ⟨extra, taken, hextra, hnodup, hextraLt, hextraLength, htakenNodup, htakenMem, htakenLength, htakenIn⟩ :=
    extraRows_ok sha256 c hcount hd hneeded hmod
  have hpoolLength : (d.rowPool (total / d.rows.length) extra.1).length = total := by
    rw [Design.rowPool, List.length_append, copies_length, List.length_range, hextraLength, Nat.mul_comm]
    exact hdiv
  have hpoolLt : ∀ i ∈ d.rowPool (total / d.rows.length) extra.1, i < d.rows.length := by
    intro i hi
    rcases List.mem_append.mp hi with hi | hi
    · obtain ⟨copy, hcopy, hin⟩ := List.mem_flatten.mp hi
      rw [(List.mem_replicate.mp hcopy).2] at hin
      exact List.mem_range.mp hin
    · exact hextraLt i hi
  have hslots := pairSlots_length hd (total / d.rows.length) htakenNodup htakenMem htakenIn
  obtain ⟨assigned, hassigned, hkeys, hreversed, hvalues⟩ := assignRows_ok sha256 c hd hpoolLt htasks hsecond hsub
    (by omega) (hpoolLength.trans htotal)
  obtain ⟨raw, hraw⟩ := assignmentDocument_canonical floats assigned
  have hcopies := rowPool_copies (total / d.rows.length) (hrows ▸ williamsRows_nodup harms) hnodup hextraLt
  have hfirst : (balancedWilliamsAssignments sha256 c floats taskIds secondSeedTasks armCount).map Prod.fst =
      .ok assigned := by
    unfold balancedWilliamsAssignments
    rw [if_neg (by omega)]
    simp only [hdesign, bind, Except.bind, ← htotal]
    rw [if_neg (by omega)]
    simp only [hextra]
    rw [if_neg (by simpa using hpoolLength)]
    simp only [hassigned, hraw, Except.mapError]
    rfl
  obtain ⟨notes, hrun⟩ := map_fst_ok hfirst
  refine ⟨assigned, notes, hrun, hkeys, ?_, hreversed, ?_⟩
  · intro row hrow
    obtain ⟨i, hi, rfl⟩ := List.mem_map.mp (hvalues.mem_iff.mp hrow)
    apply mem_williamsRows_perm (by omega)
    rw [← hrows]
    exact List.mem_of_getElem? (rowD_of_lt (hpoolLt i hi))
  · obtain ⟨copies, rest, hrestNodup, hrestMem, hperm⟩ := hcopies
    rw [← hrows]
    exact ⟨copies, rest, hrestNodup, hrestMem, hvalues.trans hperm⟩

end

/-! ## First replicates alone -/

/-- The rows of the first replicates. -/
def primaryRows (assigned : Assignments) : List (List ℕ) :=
  (assigned.entries.filter fun e => e.1.2 = 0).map Prod.snd

def sampleCoordinates : Coordinates where
  executionBindingSha256 := "0000000000000000000000000000000000000000000000000000000000000000"
  split := "dev"

def sampleText (parts : List String) : String :=
  String.intercalate "\x1f" (sampleCoordinates.executionBindingSha256 :: sampleCoordinates.split :: parts)

/-- SHA-256 of the texts that are hashed when two tasks `a` and `b` run two arms twice. -/
def sampleDigests : List (String × String) :=
  [(sampleText ["williams_pair_type_order"], "8944ccb068cc4a32ac3273d1d74809c3ec84bfcc4a60e3285fd988171b09743d"),
    (sampleText ["williams_remainder_order"], "eecdae8ff94bb7e853faaec23579f68a93faf701548388d87ef786f8bd1bdfeb"),
    ("4006456975:1", "6fb01c5163d84b69277770f0fa33cfb7a10c1590cbf9235b3c248834ae81be9e"),
    (sampleText ["williams_pair_slot_order"], "e3b3f0e3ebb9ab09ffeeb422e61163e30142e0a073d4093712c81006a950046c"),
    ("3820220643:1", "a8848cc326be3c7ddb6cff3c9efd933516f30fdbb7ae50a4c0b6b5422e56d104"),
    (sampleText ["williams_paired_task_rank", "a"], "e2aa7318bc7d3cdf237df6aad284892456e6973745247e1b8e2b900733522706"),
    (sampleText ["williams_paired_task_rank", "b"], "741b94546c0989489ea8f5ce440d6cdfe85d37165cbc78e4472e9cef453268a6"),
    (sampleText ["williams_pair_orientation", "a"], "b4a5773ec355d0d7a5828ac050b1414649de38b7f655e0f4d082829eb20e4168"),
    (sampleText ["williams_pair_orientation", "b"], "925dac10684f7d0984772535f9160bfc8a29e68f7fc7de93fe5e46ebf1519803"),
    (sampleText ["williams_single_row_order"], "7b6f602849eb1c4487cc8ee0c710129d641e7cc6f08b8e46e9318bab209baf76"),
    ("\x7b\"a:0\":[0,1],\"a:1\":[1,0],\"b:0\":[0,1],\"b:1\":[1,0]\x7d",
      "c4bb78da1ceac25816be4cbc2f0db3312f537ebec039a4ac884be705cd8dccf7")]

def unhex : List Char → List UInt8
  | high :: low :: rest => UInt8.ofNat (16 * (hexVal high).getD 0 + (hexVal low).getD 0) :: unhex rest
  | _ => []

def sampleSha256 (raw : ByteArray) : List UInt8 :=
  ((sampleDigests.find? fun e => e.1.toUTF8.data.toList = raw.data.toList).map fun e => unhex e.2.toList).getD []

def twoTasksTwice : Except AssignmentError (Assignments × Value) :=
  balancedWilliamsAssignments sampleSha256 sampleCoordinates .empty ["a", "b"] ["a", "b"] 2

theorem williams_assignment_total_twoTasks :
    ∃ assigned notes, twoTasksTwice = .ok (assigned, notes) ∧
      (∀ t r, (t, r) ∈ assigned.keys ↔ t ∈ ["a", "b"] ∧ r = 0 ∨ t ∈ ["a", "b"] ∧ r = 1) ∧
      (∀ row ∈ assigned.values, row.Perm (List.range 2)) ∧
      (∀ t ∈ ["a", "b"], ∃ row, assigned.get? (t, 0) = some row ∧ assigned.get? (t, 1) = some row.reverse) ∧
      CompleteCopies (williamsRows 2) assigned.values :=
  williams_assignment_total sampleSha256 sampleCoordinates .empty (by decide) (by decide) (fun _ h => h) (Nat.le_refl 2)

theorem twice_the_same_row : ¬ CompleteCopies (williamsRows 2) [[0, 1], [0, 1]] := by
  rintro ⟨copies, extra, hnodup, -, hperm⟩
  have hleft := hperm.count_eq [0, 1]
  have hright := hperm.count_eq [1, 0]
  have hcopies : ∀ row, ((List.replicate copies (williamsRows 2)).flatten).count row =
      copies * (williamsRows 2).count row := by
    intro row
    simp [List.count_flatten]
  rw [List.count_append, hcopies] at hleft hright
  have hone := List.nodup_iff_count_le_one.mp hnodup [0, 1]
  have htwo : List.count [0, 1] [[0, 1], [0, 1]] = 2 := rfl
  have hnone : List.count [1, 0] [[0, 1], [0, 1]] = 0 := rfl
  have hdesign : (williamsRows 2).count [0, 1] = 1 ∧ (williamsRows 2).count [1, 0] = 1 := by decide
  rw [htwo, hdesign.1] at hleft
  rw [hnone, hdesign.2] at hright
  omega

/-- Both tasks run the one row first and the other second. -/
theorem primary_rows_alike :
    (∃ assigned notes, twoTasksTwice = .ok (assigned, notes) ∧ primaryRows assigned = [[0, 1], [0, 1]]) ∧
      ¬ CompleteCopies (williamsRows 2) [[0, 1], [0, 1]] := by
  refine ⟨?_, twice_the_same_row⟩
  have hrows : twoTasksTwice.toOption.map (fun r => primaryRows r.1) = some [[0, 1], [0, 1]] := by decide +kernel
  cases hrun : twoTasksTwice with
  | error e =>
    rw [hrun] at hrows
    cases hrows
  | ok result =>
    rw [hrun] at hrows
    exact ⟨result.1, result.2, rfl, Option.some.inj hrows⟩

end Shapeflow.Randomization
