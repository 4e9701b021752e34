import Mathlib.Data.List.Nodup
import Shapeflow.Fallible
import Shapeflow.HandleCodec

set_option autoImplicit false

/-!
# The handle grammar is a bijection

Handles stand for the integers below the capacity through bijective base 26,
and these for the admitted coordinates through mixed radix.
-/
namespace Shapeflow.HandleCodec
open BijectiveBase

/-! ## Letters -/

def letter (d : Fin 26) : Char := alphabet.getD d 'a'

theorem letterValue_letter (d : Fin 26) : letterValue (letter d) = some ((d : ℕ) + 1) := by
  revert d
  decide

theorem letter_of_letterValue {ch : Char} {n : ℕ} (h : letterValue ch = some n) :
    ∃ d : Fin 26, ch = letter d ∧ n = d + 1 := by
  have hmem : ch ∈ alphabet := by
    by_contra hnot
    have hnone : alphabet.idxOf? ch = none := List.idxOf?_eq_none_iff.mpr hnot
    simp [letterValue, hnone] at h
  obtain ⟨i, hi, hget⟩ := List.mem_iff_getElem.mp hmem
  have hch : ch = letter ⟨i, hi⟩ := by
    simp [letter, List.getD, hi, hget]
  rw [hch, letterValue_letter] at h
  exact ⟨⟨i, hi⟩, hch, (Option.some.inj h).symm⟩

/-! ## Bodies -/

theorem bijectiveEncodeLoop_eq (v : ℕ) (out : List Char) :
    bijectiveEncodeLoop v out = out ++ (digits 26 v).map letter := by
  induction v using Nat.strong_induction_on generalizing out with
  | _ v ih =>
    cases v with
    | zero =>
      rw [bijectiveEncodeLoop, if_pos rfl, digits_zero]
      simp
    | succ n =>
      have hlt : n / 26 < n + 1 := by
        have hle := Nat.div_le_self n 26
        omega
      rw [bijectiveEncodeLoop, if_neg (Nat.succ_ne_zero n), Nat.add_sub_cancel, ih _ hlt, digits_succ,
        List.map_cons, List.append_assoc]
      rfl

theorem bijectiveEncode_eq (v : ℕ) : bijectiveEncode v = ((digits 26 v).map letter).reverse := by
  unfold bijectiveEncode
  rw [bijectiveEncodeLoop_eq, List.nil_append]

theorem bijectiveDecodeLoop_letters (body : List Char) (ds : List (Fin 26)) (v : ℕ) :
    bijectiveDecodeLoop body (ds.map letter) v =
      .ok (ds.foldl (fun (v : ℕ) (d : Fin 26) => v * 26 + (d + 1)) v) := by
  induction ds generalizing v with
  | nil => rfl
  | cons d ds ih =>
    rw [List.map_cons, bijectiveDecodeLoop, letterValue_letter]
    exact ih _

theorem letters_of_decodeLoop {body text : List Char} {v n : ℕ}
    (h : bijectiveDecodeLoop body text v = .ok n) : ∃ ds : List (Fin 26), text = ds.map letter := by
  induction text generalizing v with
  | nil => exact ⟨[], rfl⟩
  | cons ch rest ih =>
    rw [bijectiveDecodeLoop] at h
    cases hch : letterValue ch with
    | none => simp [hch] at h
    | some m =>
      simp only [hch] at h
      obtain ⟨d, hd, -⟩ := letter_of_letterValue hch
      obtain ⟨ds, hds⟩ := ih h
      exact ⟨d :: ds, by rw [List.map_cons, ← hd, ← hds]⟩

theorem bijectiveDecode_encode (v : ℕ) : bijectiveDecode (bijectiveEncode v) = .ok v := by
  unfold bijectiveDecode
  rw [bijectiveEncode_eq, ← List.map_reverse, bijectiveDecodeLoop_letters, foldl_reverse, value_digits]

theorem encode_of_bijectiveDecode {text : List Char} {v : ℕ} (h : bijectiveDecode text = .ok v) :
    text = bijectiveEncode v := by
  obtain ⟨ds, rfl⟩ := letters_of_decodeLoop h
  have hrev : ds.reverse.reverse = ds := List.reverse_reverse ds
  unfold bijectiveDecode at h
  rw [bijectiveDecodeLoop_letters, ← hrev, foldl_reverse] at h
  rw [bijectiveEncode_eq, ← Except.ok.inj h, digits_value, List.map_reverse, List.reverse_reverse]

theorem bijectiveEncode_length (v : ℕ) : (bijectiveEncode v).length = (digits 26 v).length := by
  rw [bijectiveEncode_eq, List.length_reverse, List.length_map]

theorem bijectiveEncode_cons {v : ℕ} (h : 0 < v) : ∃ ch rest, bijectiveEncode v = ch :: rest := by
  cases hbody : bijectiveEncode v with
  | cons ch rest => exact ⟨ch, rest, rfl⟩
  | nil =>
    have hv := bijectiveDecode_encode v
    rw [hbody] at hv
    have hzero : 0 = v := Except.ok.inj hv
    omega

/-! ## Mixed radix -/

theorem digit_ediv {q r m : ℤ} (h0 : 0 ≤ r) (hm : r < m) : (q * m + r) / m = q := by
  rw [Int.add_comm, Int.add_mul_ediv_right _ _ (by omega), Int.ediv_eq_zero_of_lt h0 hm, Int.zero_add]

theorem digit_emod {q r m : ℤ} (h0 : 0 ≤ r) (hm : r < m) : (q * m + r) % m = r := by
  rw [Int.add_comm, Int.add_mul_emod_self_right, Int.emod_eq_of_lt h0 hm]

theorem digit_lt {q r m n : ℤ} (hq : q < n) (hr : r < m) (hm : 0 ≤ m) : q * m + r < n * m := by
  have hmul : (q + 1) * m ≤ n * m := Int.mul_le_mul_of_nonneg_right (by omega) hm
  rw [Int.add_mul, Int.one_mul] at hmul
  omega

theorem digit_nonneg {q r m : ℤ} (hq : 0 ≤ q) (hr : 0 ≤ r) (hm : 0 ≤ m) : 0 ≤ q * m + r := by
  have hmul : 0 ≤ q * m := Int.mul_nonneg hq hm
  omega

/-- The coordinates that the codec admits. -/
def InDomain (radices : HandleRadices) (x : Coordinates) : Prop :=
  (0 ≤ x.1 ∧ x.1 < radices.structural) ∧ (0 ≤ x.2.1 ∧ x.2.1 < radices.assistantTurn) ∧
    (0 ≤ x.2.2.1 ∧ x.2.2.1 < radices.toolset) ∧ (1 ≤ x.2.2.2 ∧ x.2.2.2 ≤ radices.evidence)

def packed (radices : HandleRadices) (x : Coordinates) : ℤ :=
  ((x.1 * radices.assistantTurn + x.2.1) * radices.toolset + x.2.2.1) * radices.evidence + (x.2.2.2 - 1)

def unpacked (radices : HandleRadices) (index : ℤ) : Coordinates :=
  (index / radices.evidence / radices.toolset / radices.assistantTurn,
    index / radices.evidence / radices.toolset % radices.assistantTurn,
    index / radices.evidence % radices.toolset, index % radices.evidence + 1)

section
variable {radices : HandleRadices}

theorem packed_range {x : Coordinates} (h : InDomain radices x) :
    0 ≤ packed radices x ∧ packed radices x < radices.capacity := by
  obtain ⟨⟨hs, hs'⟩, ⟨ha, ha'⟩, ⟨ht, ht'⟩, he, he'⟩ := h
  have hA := radices.assistantTurn_pos
  have hT := radices.toolset_pos
  have hE := radices.evidence_pos
  have h₁ := digit_nonneg hs ha (by omega : 0 ≤ radices.assistantTurn)
  have h₂ := digit_nonneg h₁ ht (by omega : 0 ≤ radices.toolset)
  have h₃ := digit_lt hs' ha' (by omega)
  have h₄ := digit_lt h₃ ht' (by omega)
  exact ⟨digit_nonneg h₂ (by omega) (by omega), digit_lt h₄ (by omega) (by omega)⟩

theorem unpacked_packed {x : Coordinates} (h : InDomain radices x) :
    unpacked radices (packed radices x) = x := by
  obtain ⟨-, ⟨ha, ha'⟩, ⟨ht, ht'⟩, he, he'⟩ := h
  obtain ⟨s, a, t, e⟩ := x
  have he₀ : 0 ≤ e - 1 := Int.sub_nonneg_of_le he
  have he₁ : e - 1 < radices.evidence := Int.sub_one_lt_iff.mpr he'
  unfold unpacked packed
  rw [digit_ediv he₀ he₁, digit_emod he₀ he₁, digit_ediv ht ht', digit_emod ht ht', digit_ediv ha ha',
    digit_emod ha ha', Int.sub_add_cancel]

theorem packed_unpacked (index : ℤ) : packed radices (unpacked radices index) = index := by
  unfold packed unpacked
  have h₁ := Int.mul_ediv_add_emod index radices.evidence
  have h₂ := Int.mul_ediv_add_emod (index / radices.evidence) radices.toolset
  have h₃ := Int.mul_ediv_add_emod (index / radices.evidence / radices.toolset) radices.assistantTurn
  simp only [Int.add_sub_cancel]
  rw [Int.mul_comm _ radices.assistantTurn, h₃, Int.mul_comm _ radices.toolset, h₂,
    Int.mul_comm _ radices.evidence, h₁]

theorem unpacked_inDomain {index : ℤ} (h0 : 0 ≤ index) (hcap : index < radices.capacity) :
    InDomain radices (unpacked radices index) := by
  have hA := radices.assistantTurn_pos
  have hT := radices.toolset_pos
  have hE := radices.evidence_pos
  have hpos : 0 ≤ index / radices.evidence / radices.toolset / radices.assistantTurn :=
    Int.ediv_nonneg (Int.ediv_nonneg (Int.ediv_nonneg h0 (by omega)) (by omega)) (by omega)
  have hlt : index / radices.evidence / radices.toolset / radices.assistantTurn < radices.structural := by
    refine Int.ediv_lt_of_lt_mul (by omega) (Int.ediv_lt_of_lt_mul (by omega)
      (Int.ediv_lt_of_lt_mul (by omega) ?_))
    exact hcap
  refine ⟨⟨hpos, hlt⟩, ⟨Int.emod_nonneg _ (by omega), Int.emod_lt_of_pos _ (by omega)⟩,
    ⟨Int.emod_nonneg _ (by omega), Int.emod_lt_of_pos _ (by omega)⟩, ?_, ?_⟩
  · have hmod := Int.emod_nonneg index (by omega : radices.evidence ≠ 0)
    change 1 ≤ index % radices.evidence + 1
    omega
  · have hmod := Int.emod_lt_of_pos index (by omega : 0 < radices.evidence)
    change index % radices.evidence + 1 ≤ radices.evidence
    omega

end

/-! ## Packing and rendering -/

theorem coordinate_ok {name : String} {value : Arg} {radix low n : ℤ} :
    coordinate name value radix low = .ok n ↔ value = .int n ∧ low ≤ n ∧ n - low < radix := by
  cases value with
  | int m =>
    simp only [coordinate, Arg.int.injEq]
    split
    · simp only [reduceCtorEq, false_iff]
      rintro ⟨rfl, hlow, -⟩
      omega
    · split
      · simp only [reduceCtorEq, false_iff]
        rintro ⟨rfl, -, hlt⟩
        omega
      · simp only [Except.ok.injEq]
        constructor
        · rintro rfl
          exact ⟨rfl, by omega, by omega⟩
        · exact fun h => h.1
  | bool b => simp [coordinate]
  | other => simp [coordinate]

/-- The domain that `encode` admits, and the index it is packed to. -/
theorem pack_ok {radices : HandleRadices} {s a t e : Arg} {index : ℤ} :
    pack s a t e radices = .ok index ↔ ∃ x : Coordinates, InDomain radices x ∧ s = .int x.1 ∧
      a = .int x.2.1 ∧ t = .int x.2.2.1 ∧ e = .int x.2.2.2 ∧ index = packed radices x := by
  unfold pack
  simp only [Fallible.bind_ok, coordinate_ok]
  constructor
  · rintro ⟨s', ⟨rfl, hs₁, hs₂⟩, a', ⟨rfl, ha₁, ha₂⟩, t', ⟨rfl, ht₁, ht₂⟩, e', ⟨rfl, he₁, he₂⟩, hindex⟩
    rw [Int.sub_zero] at hs₂ ha₂ ht₂
    exact ⟨(s', a', t', e'), ⟨⟨hs₁, hs₂⟩, ⟨ha₁, ha₂⟩, ⟨ht₁, ht₂⟩, he₁, Int.sub_one_lt_iff.mp he₂⟩, rfl, rfl,
      rfl, rfl, (Except.ok.inj hindex).symm⟩
  · rintro ⟨⟨s', a', t', e'⟩, ⟨⟨hs₁, hs₂⟩, ⟨ha₁, ha₂⟩, ⟨ht₁, ht₂⟩, he₁, he₂⟩, rfl, rfl, rfl, rfl, rfl⟩
    have hs₀ : s' - 0 < radices.structural := (Int.sub_zero s').symm ▸ hs₂
    have ha₀ : a' - 0 < radices.assistantTurn := (Int.sub_zero a').symm ▸ ha₂
    have ht₀ : t' - 0 < radices.toolset := (Int.sub_zero t').symm ▸ ht₂
    exact ⟨s', ⟨rfl, hs₁, hs₀⟩, a', ⟨rfl, ha₁, ha₀⟩, t', ⟨rfl, ht₁, ht₀⟩, e',
      ⟨rfl, he₁, Int.sub_one_lt_iff.mpr he₂⟩, rfl⟩

theorem encode_ok {radices : HandleRadices} {s a t e : Arg} {h : String} :
    encode radices s a t e = .ok h ↔ ∃ x : Coordinates, InDomain radices x ∧ s = .int x.1 ∧
      a = .int x.2.1 ∧ t = .int x.2.2.1 ∧ e = .int x.2.2.2 ∧ h = render (packed radices x) := by
  unfold encode
  simp only [Fallible.bind_ok, pack_ok]
  constructor
  · rintro ⟨index, ⟨x, hx, hs, ha, ht, he, rfl⟩, hh⟩
    exact ⟨x, hx, hs, ha, ht, he, (Except.ok.inj hh).symm⟩
  · rintro ⟨x, hx, hs, ha, ht, he, rfl⟩
    exact ⟨_, ⟨x, hx, hs, ha, ht, he, rfl⟩, rfl⟩

theorem render_toList (index : ℤ) : (render index).toList = 'H' :: bijectiveEncode (index + 1).toNat :=
  String.toList_ofList

theorem render_injective {i j : ℤ} (hi : 0 ≤ i) (hj : 0 ≤ j) (h : render i = render j) : i = j := by
  have hbody := (List.cons.inj (String.ofList_inj.mp h)).2
  have hi' := bijectiveDecode_encode (i + 1).toNat
  rw [hbody, bijectiveDecode_encode] at hi'
  have heq := Except.ok.inj hi'
  omega

theorem decode_render {radices : HandleRadices} {index : ℤ} (h0 : 0 ≤ index)
    (hcap : index < radices.capacity) : decode radices (render index) = .ok (unpacked radices index) := by
  obtain ⟨ch, rest, hbody⟩ := bijectiveEncode_cons (by omega : 0 < (index + 1).toNat)
  have hdec := bijectiveDecode_encode (index + 1).toNat
  rw [hbody] at hdec
  have hindex : (((index + 1).toNat : ℕ) : ℤ) - 1 = index := by omega
  unfold decode
  rw [render_toList, hbody]
  simp only [hdec]
  change (if (((index + 1).toNat : ℕ) : ℤ) - 1 < 0 ∨ (((index + 1).toNat : ℕ) : ℤ) - 1 ≥ radices.capacity
    then _ else _) = _
  rw [hindex, if_neg (by omega)]
  rfl

theorem decode_ok {radices : HandleRadices} {h : String} {x : Coordinates} :
    decode radices h = .ok x ↔ InDomain radices x ∧ h = render (packed radices x) := by
  constructor
  · intro hdec
    unfold decode at hdec
    split at hdec
    · rename_i ch rest hlist
      cases hbody : bijectiveDecode (ch :: rest) with
      | error err =>
        rw [hbody] at hdec
        cases hdec
      | ok v =>
        rw [hbody] at hdec
        change (if (v : ℤ) - 1 < 0 ∨ (v : ℤ) - 1 ≥ radices.capacity then _ else _) = _ at hdec
        split at hdec
        · cases hdec
        · rename_i hrange
          have h0 : 0 ≤ (v : ℤ) - 1 := by omega
          have hcap : (v : ℤ) - 1 < radices.capacity := by omega
          have hx : unpacked radices ((v : ℤ) - 1) = x := Except.ok.inj hdec
          have hrender : h = render ((v : ℤ) - 1) := by
            rw [← String.toList_inj, render_toList, hlist, encode_of_bijectiveDecode hbody]
            have hv : ((v : ℤ) - 1 + 1).toNat = v := by omega
            rw [hv]
          subst hx
          exact ⟨unpacked_inDomain h0 hcap, by rw [packed_unpacked, hrender]⟩
    · cases hdec
  · rintro ⟨hx, rfl⟩
    obtain ⟨h0, hcap⟩ := packed_range hx
    rw [decode_render h0 hcap, unpacked_packed hx]

/-- A handle that some coordinates are encoded to. -/
def IsHandle (radices : HandleRadices) (h : String) : Prop :=
  ∃ s a t e, encode radices s a t e = .ok h

theorem isHandle_iff {radices : HandleRadices} {h : String} :
    IsHandle radices h ↔ ∃ x, InDomain radices x ∧ h = render (packed radices x) := by
  constructor
  · rintro ⟨s, a, t, e, henc⟩
    obtain ⟨x, hx, -, -, -, -, hh⟩ := encode_ok.mp henc
    exact ⟨x, hx, hh⟩
  · rintro ⟨x, hx, hh⟩
    exact ⟨_, _, _, _, encode_ok.mpr ⟨x, hx, rfl, rfl, rfl, rfl, hh⟩⟩

theorem encodeCoordinates_ok {radices : HandleRadices} {x : Coordinates} (hx : InDomain radices x) :
    encodeCoordinates radices x = .ok (render (packed radices x)) :=
  encode_ok.mpr ⟨x, hx, rfl, rfl, rfl, rfl, rfl⟩

/-! ## The statements of the contract -/

theorem decode_encode {radices : HandleRadices} {s a t e : Arg} {h : String}
    (henc : encode radices s a t e = .ok h) :
    ∃ x : Coordinates, decode radices h = .ok x ∧ s = .int x.1 ∧ a = .int x.2.1 ∧ t = .int x.2.2.1 ∧
      e = .int x.2.2.2 := by
  obtain ⟨x, hx, hs, ha, ht, he, rfl⟩ := encode_ok.mp henc
  exact ⟨x, decode_ok.mpr ⟨hx, rfl⟩, hs, ha, ht, he⟩

/-- `validate` never raises, and is true exactly on the image of `encode`. -/
theorem validate_eq (radices : HandleRadices) (h : String) :
    ∃ b, validate radices h = .ok b ∧ (b = true ↔ IsHandle radices h) := by
  unfold validate
  cases hdec : decode radices h with
  | error err =>
    refine ⟨false, rfl, ?_⟩
    simp only [Bool.false_eq_true, false_iff]
    rintro ⟨s, a, t, e, henc⟩
    obtain ⟨x, hx, -⟩ := decode_encode henc
    rw [hdec] at hx
    cases hx
  | ok x =>
    obtain ⟨hx, hh⟩ := decode_ok.mp hdec
    have henc := encodeCoordinates_ok hx
    simp only [henc]
    refine ⟨true, ?_, ?_⟩
    · change Except.ok (decide (render (packed radices x) = h)) = Except.ok true
      rw [← hh]
      simp
    · simp only [true_iff]
      exact isHandle_iff.mpr ⟨x, hx, hh⟩

theorem iterDomain_getElem (radices : HandleRadices) (i : ℕ) (hi : i < (iterDomain radices).length) :
    (iterDomain radices)[i] = render i := by
  simp [iterDomain]

theorem iterDomain_length (radices : HandleRadices) :
    (iterDomain radices).length = radices.capacity.toNat := by
  simp [iterDomain]

theorem iterDomain_nodup (radices : HandleRadices) : (iterDomain radices).Nodup := by
  refine List.Nodup.map_on ?_ List.nodup_range
  intro i _ j _ hij
  have heq := render_injective (by omega) (by omega) hij
  omega

theorem mem_iterDomain {radices : HandleRadices} {h : String} :
    h ∈ iterDomain radices ↔ IsHandle radices h := by
  rw [isHandle_iff]
  constructor
  · intro hmem
    obtain ⟨i, hi, rfl⟩ := List.mem_map.mp hmem
    have hlt := List.mem_range.mp hi
    refine ⟨unpacked radices i, unpacked_inDomain (by omega) (by omega), ?_⟩
    rw [packed_unpacked]
  · rintro ⟨x, hx, rfl⟩
    obtain ⟨h0, hcap⟩ := packed_range hx
    refine List.mem_map.mpr ⟨(packed radices x).toNat, List.mem_range.mpr (by omega), ?_⟩
    rw [Int.toNat_of_nonneg h0]

/-- The `i`-th handle of the enumeration is the one packed to `i`. -/
theorem iterDomain_packed {radices : HandleRadices} {i : ℕ} (hi : i < (iterDomain radices).length) :
    ∃ s a t e, pack s a t e radices = .ok i ∧ encode radices s a t e = .ok (iterDomain radices)[i] := by
  have hlt := hi
  rw [iterDomain_length] at hlt
  have hdom : InDomain radices (unpacked radices i) := unpacked_inDomain (by omega) (by omega)
  have hpacked : packed radices (unpacked radices i) = i := packed_unpacked i
  refine ⟨_, _, _, _, pack_ok.mpr ⟨_, hdom, rfl, rfl, rfl, rfl, hpacked.symm⟩,
    encode_ok.mpr ⟨_, hdom, rfl, rfl, rfl, rfl, ?_⟩⟩
  rw [iterDomain_getElem, hpacked]

theorem body_length {radices : HandleRadices} {h : String} (hh : IsHandle radices h) :
    h.toList.tail.length ≤ maxEncodedWidth radices := by
  obtain ⟨x, hx, rfl⟩ := isHandle_iff.mp hh
  obtain ⟨h0, hcap⟩ := packed_range hx
  rw [render_toList, List.tail_cons, maxEncodedWidth, bijectiveEncode_length, bijectiveEncode_length]
  exact length_digits_mono 26 (by omega)

theorem researcherPart_ok {name : String} {value : Arg} {radix n : ℤ} :
    researcherPart name value radix = .ok n ↔ value = .int n ∧ 0 ≤ n ∧ n < radix := by
  cases value with
  | int m =>
    simp only [researcherPart, Arg.int.injEq]
    split
    · simp only [reduceCtorEq, false_iff]
      rintro ⟨rfl, hlow, -⟩
      omega
    · split
      · simp only [reduceCtorEq, false_iff]
        rintro ⟨rfl, -, hlt⟩
        omega
      · simp only [Except.ok.injEq]
        constructor
        · rintro rfl
          exact ⟨rfl, by omega, by omega⟩
        · exact fun h => h.1
  | bool b => simp [researcherPart]
  | other => simp [researcherPart]

/-- The slot of an optional nested-researcher position: 0 for none, and from 1 on by mixed radix. -/
theorem structuralOrdinal_ok {radices : HandleRadices} {c : Option (Arg × Arg)} {n : ℤ} :
    structuralOrdinal radices c = .ok n ↔ (c = none ∧ n = 0) ∨
      ∃ i j, c = some (.int i, .int j) ∧ (0 ≤ i ∧ i < radices.researcherIteration) ∧
        (0 ≤ j ∧ j < radices.childOrdinal) ∧ n = 1 + i * radices.childOrdinal + j := by
  cases c with
  | none => simp [structuralOrdinal, eq_comm]
  | some p =>
    obtain ⟨iteration, child⟩ := p
    simp only [structuralOrdinal]
    constructor
    · intro h
      cases hi : researcherPart "researcher iteration" iteration radices.researcherIteration with
      | error err =>
        rw [hi] at h
        cases h
      | ok i =>
      cases hj : researcherPart "child ordinal" child radices.childOrdinal with
      | error err =>
        rw [hi, hj] at h
        cases h
      | ok j =>
      rw [hi, hj] at h
      obtain ⟨rfl, hi₀, hi₁⟩ := researcherPart_ok.mp hi
      obtain ⟨rfl, hj₀, hj₁⟩ := researcherPart_ok.mp hj
      exact .inr ⟨i, j, rfl, ⟨hi₀, hi₁⟩, ⟨hj₀, hj₁⟩, (Except.ok.inj h).symm⟩
    · rintro (⟨hnone, -⟩ | ⟨i, j, hij, ⟨hi₀, hi₁⟩, ⟨hj₀, hj₁⟩, rfl⟩)
      · cases hnone
      · obtain ⟨rfl, rfl⟩ := Prod.mk.inj (Option.some.inj hij)
        rw [researcherPart_ok.mpr ⟨rfl, hi₀, hi₁⟩, researcherPart_ok.mpr ⟨rfl, hj₀, hj₁⟩]
        rfl

theorem structuralOrdinal_range {radices : HandleRadices} {c : Option (Arg × Arg)} {n : ℤ}
    (h : structuralOrdinal radices c = .ok n) : 0 ≤ n ∧ n < radices.structural := by
  have hI := radices.researcherIteration_pos
  have hC := radices.childOrdinal_pos
  rcases structuralOrdinal_ok.mp h with ⟨-, rfl⟩ | ⟨i, j, -, ⟨hi, hi'⟩, ⟨hj, hj'⟩, rfl⟩
  · have hmul : 0 ≤ radices.researcherIteration * radices.childOrdinal :=
      Int.mul_nonneg (by omega) (by omega)
    unfold HandleRadices.structural
    omega
  · have h₁ := digit_nonneg hi hj (by omega : 0 ≤ radices.childOrdinal)
    have h₂ := digit_lt hi' hj' (by omega)
    unfold HandleRadices.structural
    omega

theorem structuralOrdinal_injective {radices : HandleRadices} {c c' : Option (Arg × Arg)} {n : ℤ}
    (h : structuralOrdinal radices c = .ok n) (h' : structuralOrdinal radices c' = .ok n) : c = c' := by
  have hC := radices.childOrdinal_pos
  rcases structuralOrdinal_ok.mp h with ⟨rfl, rfl⟩ | ⟨i, j, rfl, ⟨hi, hi'⟩, ⟨hj, hj'⟩, rfl⟩
  · rcases structuralOrdinal_ok.mp h' with ⟨rfl, -⟩ | ⟨i, j, -, ⟨hi, hi'⟩, ⟨hj, hj'⟩, hn⟩
    · rfl
    · have hnn := digit_nonneg hi hj (by omega : 0 ≤ radices.childOrdinal)
      omega
  · rcases structuralOrdinal_ok.mp h' with ⟨-, hn⟩ | ⟨k, l, rfl, ⟨hk, hk'⟩, ⟨hl, hl'⟩, hn⟩
    · have hnn := digit_nonneg hi hj (by omega : 0 ≤ radices.childOrdinal)
      omega
    · have hsum : i * radices.childOrdinal + j = k * radices.childOrdinal + l := by omega
      have hik : i = k := by
        rw [← digit_ediv (q := i) hj hj', hsum, digit_ediv hl hl']
      have hjl : j = l := by
        rw [← digit_emod (q := i) hj hj', hsum, digit_emod hl hl']
      rw [hik, hjl]

/-- Different optional researcher positions never share a handle. -/
theorem handles_of_positions_differ {radices : HandleRadices} {c c' : Option (Arg × Arg)} {n n' : ℤ}
    {a t e a' t' e' : Arg} {h : String} (hn : structuralOrdinal radices c = .ok n)
    (hn' : structuralOrdinal radices c' = .ok n') (hne : c ≠ c')
    (henc : encode radices (.int n) a t e = .ok h) : encode radices (.int n') a' t' e' ≠ .ok h := by
  intro henc'
  obtain ⟨x, hx, hs, -⟩ := decode_encode henc
  obtain ⟨y, hy, hs', -⟩ := decode_encode henc'
  rw [hx] at hy
  obtain rfl := Except.ok.inj hy
  have hnn : n = n' := (Arg.int.inj hs).trans (Arg.int.inj hs').symm
  subst hnn
  exact hne (structuralOrdinal_injective hn hn')

/-- The handle grammar is a bijection between the admitted coordinates and the valid handles. -/
theorem handle_bijection (radices : HandleRadices) :
    (∀ s a t e h, encode radices s a t e = .ok h →
      ∃ x : Coordinates, decode radices h = .ok x ∧ s = .int x.1 ∧ a = .int x.2.1 ∧ t = .int x.2.2.1 ∧
        e = .int x.2.2.2) ∧
    (∀ h, ∃ b, validate radices h = .ok b ∧ (b = true ↔ IsHandle radices h) ∧
      (b = true → ∃ x, decode radices h = .ok x ∧ encodeCoordinates radices x = .ok h)) ∧
    ((iterDomain radices).Nodup ∧ (∀ h, h ∈ iterDomain radices ↔ IsHandle radices h) ∧
      ∀ (i : ℕ) (hi : i < (iterDomain radices).length), ∃ s a t e,
        pack s a t e radices = .ok i ∧ encode radices s a t e = .ok (iterDomain radices)[i]) ∧
    (∀ h, IsHandle radices h → h.toList.tail.length ≤ maxEncodedWidth radices) ∧
    (∀ c n, structuralOrdinal radices c = .ok n → 0 ≤ n ∧ n < radices.structural) ∧
    (∀ c c' n, structuralOrdinal radices c = .ok n → structuralOrdinal radices c' = .ok n → c = c') ∧
    (∀ c c' n n' a t e a' t' e' h, structuralOrdinal radices c = .ok n →
      structuralOrdinal radices c' = .ok n' → c ≠ c' → encode radices (.int n) a t e = .ok h →
        encode radices (.int n') a' t' e' ≠ .ok h) := by
  refine ⟨fun s a t e h henc => decode_encode henc, ?_,
    ⟨iterDomain_nodup radices, fun h => mem_iterDomain, fun i hi => iterDomain_packed hi⟩,
    fun h hh => body_length hh, fun c n h => structuralOrdinal_range h,
    fun c c' n h h' => structuralOrdinal_injective h h',
    fun c c' n n' a t e a' t' e' h hn hn' hne henc => handles_of_positions_differ hn hn' hne henc⟩
  intro h
  obtain ⟨b, hval, hb⟩ := validate_eq radices h
  refine ⟨b, hval, hb, fun htrue => ?_⟩
  obtain ⟨x, hx, hh⟩ := isHandle_iff.mp (hb.mp htrue)
  exact ⟨x, decode_ok.mpr ⟨hx, hh⟩, by rw [encodeCoordinates_ok hx, hh]⟩

end Shapeflow.HandleCodec
