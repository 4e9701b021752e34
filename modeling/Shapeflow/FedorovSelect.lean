import Mathlib.Algebra.Order.Ring.Unbundled.Rat
import Mathlib.Data.List.Nodup
import Mathlib.Data.List.ProdSigma
import Shapeflow.BlockDesign
import Shapeflow.SelectorOutputRows

set_option autoImplicit false

/-!
# Coordinate exchange

`fedorov_select` replaces one selected row at a time while the criterion grows
by more than a tolerance. The criterion is any function of the selected rows
into a linear order.
-/
namespace Shapeflow.BlockDesign
open P1 (firstSeen mem_firstSeen nodup_firstSeen)

/-! ## The selection -/

inductive FedorovError where
  | nSelectOutOfRange
  | indexOutOfBounds
  deriving DecidableEq, Repr

/-- The order in which `list(set(range(first, stop)))` lists its members. -/
structure SlotOrder where
  slots : ℕ → ℕ → List ℕ
  perm : ∀ first stop, (slots first stop).Perm (List.range' first (stop - first))

section Exchange
variable {ρ α : Type} [LinearOrder α]

/-- `pool[i]`, a negative index counting from the end. -/
def rowAt (pool : List ρ) (i : ℤ) : Option ρ :=
  if 0 ≤ i then pool[i.toNat]?
  else if 0 ≤ i + pool.length then pool[(i + pool.length).toNat]?
  else none

/-- `d_criterion(pool[idxs])` -/
def score (criterion : List ρ → α) (pool : List ρ) (idxs : List ℤ) : α := criterion (idxs.filterMap (rowAt pool))

/-- The loop's variables; `current_set` is always the set of `selected`. -/
structure Exchanging (α : Type) where
  selected : List ℤ
  best : α
  improved : Bool
  deriving DecidableEq

variable (scoreOf : List ℤ → α) (above : α → α)

/-- The inner body: `above best` is `best + 1e-12`. -/
def tryExchange (st : Exchanging α) (exchange : ℕ × ℕ) : Exchanging α :=
  if (exchange.2 : ℤ) ∈ st.selected then st
  else
    let trial := st.selected.set exchange.1 exchange.2
    if above st.best < scoreOf trial then ⟨trial, scoreOf trial, true⟩ else st

/-- One pass: every slot that may be swapped, and for it every candidate. -/
def pass (slots : List ℕ) (nPool : ℕ) (st : Exchanging α) : Exchanging α :=
  (slots ×ˢ List.range nPool).foldl (tryExchange scoreOf above) { st with improved := false }

/-- The passes made, whether the last of them changed nothing, and what is left. -/
structure Outcome (α : Type) where
  passes : ℕ
  settled : Bool
  final : Exchanging α
  deriving DecidableEq

def passesUpTo (slots : List ℕ) (nPool : ℕ) : ℕ → Exchanging α → Outcome α
  | 0, st => ⟨0, false, st⟩
  | n + 1, st =>
    let st' := pass scoreOf above slots nPool st
    if st'.improved then
      let rest := passesUpTo slots nPool n st'
      { rest with passes := rest.passes + 1 }
    else ⟨1, true, st'⟩

end Exchange

section Select
variable {ρ α : Type} [LinearOrder α] (criterion : List ρ → α) (above : α → α) (slotOrder : SlotOrder)
  (defaultRng : ℤ → Rng ℤ) (pool : List ρ) (nSelect : ℤ) (forced : List ℤ) (seed maxIter : ℤ)

/-- `forced + remaining[: n_select - len(forced)]` -/
def initialSelection : List ℤ :=
  let remaining := ((List.range pool.length).map Int.ofNat).filter fun i => i ∉ firstSeen forced
  firstSeen forced ++ ((defaultRng seed).shuffle remaining).take (nSelect.toNat - (firstSeen forced).length)

/-- `best = score(selected)` before the first pass. -/
def started (selected : List ℤ) : Exchanging α := ⟨selected, score criterion pool selected, false⟩

/-- `fedorov_select` with its passes. Only a forced index can lie outside the pool, so the first score raises for it. -/
def fedorovRun : Except FedorovError (Outcome α) :=
  let selected := initialSelection defaultRng pool nSelect forced seed
  if nSelect < (firstSeen forced).length ∨ pool.length < nSelect then .error .nSelectOutOfRange
  else if selected.any fun i => (rowAt pool i).isNone then .error .indexOutOfBounds
  else .ok (passesUpTo (score criterion pool) above
    (slotOrder.slots (firstSeen forced).length nSelect.toNat) pool.length maxIter.toNat
    (started criterion pool selected))

def fedorovSelect : Except FedorovError (List ℤ) :=
  (fedorovRun criterion above slotOrder defaultRng pool nSelect forced seed maxIter).map fun o => o.final.selected

end Select

/-! ## One exchange, one pass, every pass -/

section Exchange
variable {α : Type} [LinearOrder α] {scoreOf : List ℤ → α} {above : α → α}

/-- What every exchange keeps: distinct indices, the forced ones first, and a score not below the initial one. -/
structure Keeps (scoreOf : List ℤ → α) (kept : List ℤ) (size : ℕ) (least : α) (st : Exchanging α) : Prop where
  size : st.selected.length = size
  distinct : st.selected.Nodup
  starts : kept <+: st.selected
  best : st.best = scoreOf st.selected
  better : least ≤ st.best

theorem prefix_set {kept selected : List ℤ} (h : kept <+: selected) {slot : ℕ} (hslot : kept.length ≤ slot) (i : ℤ) :
    kept <+: selected.set slot i := by
  obtain ⟨rest, rfl⟩ := h
  rw [List.set_append_right _ _ hslot]
  exact List.prefix_append _ _

theorem tryExchange_keeps (habove : ∀ x, x ≤ above x) {kept : List ℤ} {size : ℕ} {least : α} {st : Exchanging α}
    (hst : Keeps scoreOf kept size least st) {exchange : ℕ × ℕ} (hslot : kept.length ≤ exchange.1) :
    Keeps scoreOf kept size least (tryExchange scoreOf above st exchange) := by
  unfold tryExchange
  split
  · exact hst
  · rename_i hcand
    simp only
    split
    · rename_i hlt
      exact {
        size := by rw [List.length_set]; exact hst.size
        distinct := hst.distinct.set hcand
        starts := prefix_set hst.starts hslot _
        best := rfl
        better := (hst.better.trans (habove _)).trans hlt.le }
    · exact hst

theorem foldl_tryExchange_keeps (habove : ∀ x, x ≤ above x) {kept : List ℤ} {size : ℕ} {least : α}
    {exchanges : List (ℕ × ℕ)} (hslots : ∀ e ∈ exchanges, kept.length ≤ e.1) {st : Exchanging α}
    (hst : Keeps scoreOf kept size least st) :
    Keeps scoreOf kept size least (exchanges.foldl (tryExchange scoreOf above) st) := by
  induction exchanges generalizing st with
  | nil => exact hst
  | cons e exchanges ih =>
    rw [List.forall_mem_cons] at hslots
    exact ih hslots.2 (tryExchange_keeps habove hst hslots.1)

theorem tryExchange_improved {st : Exchanging α} (h : st.improved = true) (e : ℕ × ℕ) :
    (tryExchange scoreOf above st e).improved = true := by
  unfold tryExchange
  split
  · exact h
  · simp only
    split
    · rfl
    · exact h

theorem foldl_tryExchange_improved {exchanges : List (ℕ × ℕ)} {st : Exchanging α} (h : st.improved = true) :
    (exchanges.foldl (tryExchange scoreOf above) st).improved = true := by
  induction exchanges generalizing st with
  | nil => exact h
  | cons e exchanges ih => exact ih (tryExchange_improved h e)

/-- No exchange of the list gains more than the tolerance. -/
def NoGain (scoreOf : List ℤ → α) (above : α → α) (st : Exchanging α) (e : ℕ × ℕ) : Prop :=
  (e.2 : ℤ) ∉ st.selected → scoreOf (st.selected.set e.1 e.2) ≤ above st.best

/-- A pass that improved nothing changed nothing, and saw no gain anywhere. -/
theorem foldl_tryExchange_unimproved {exchanges : List (ℕ × ℕ)} {st : Exchanging α}
    (h : (exchanges.foldl (tryExchange scoreOf above) st).improved = false) :
    exchanges.foldl (tryExchange scoreOf above) st = st ∧ ∀ e ∈ exchanges, NoGain scoreOf above st e := by
  induction exchanges generalizing st with
  | nil => exact ⟨rfl, fun e he => absurd he List.not_mem_nil⟩
  | cons e exchanges ih =>
    rw [List.foldl_cons] at h ⊢
    have hstep : tryExchange scoreOf above st e = st ∧ NoGain scoreOf above st e := by
      by_cases hcand : (e.2 : ℤ) ∈ st.selected
      · exact ⟨if_pos hcand, fun hno => absurd hcand hno⟩
      · by_cases hlt : above st.best < scoreOf (st.selected.set e.1 e.2)
        · have hgain : (tryExchange scoreOf above st e).improved = true := by
            simp only [tryExchange, if_neg hcand, if_pos hlt]
          rw [foldl_tryExchange_improved hgain] at h
          cases h
        · refine ⟨?_, fun _ => not_lt.mp hlt⟩
          simp only [tryExchange, if_neg hcand, if_neg hlt]
    rw [hstep.1] at h ⊢
    obtain ⟨hsame, hrest⟩ := ih h
    exact ⟨hsame, List.forall_mem_cons.mpr ⟨hstep.2, hrest⟩⟩

theorem pass_keeps (habove : ∀ x, x ≤ above x) {kept : List ℤ} {size : ℕ} {least : α} {slots : List ℕ}
    (hslots : ∀ s ∈ slots, kept.length ≤ s) {nPool : ℕ} {st : Exchanging α} (hst : Keeps scoreOf kept size least st) :
    Keeps scoreOf kept size least (pass scoreOf above slots nPool st) := by
  refine foldl_tryExchange_keeps habove (fun e he => hslots e.1 (List.pair_mem_product.mp he).1) ?_
  exact ⟨hst.size, hst.distinct, hst.starts, hst.best, hst.better⟩

theorem passesUpTo_keeps (habove : ∀ x, x ≤ above x) {kept : List ℤ} {size : ℕ} {least : α} {slots : List ℕ}
    (hslots : ∀ s ∈ slots, kept.length ≤ s) (nPool n : ℕ) {st : Exchanging α}
    (hst : Keeps scoreOf kept size least st) :
    Keeps scoreOf kept size least (passesUpTo scoreOf above slots nPool n st).final := by
  induction n generalizing st with
  | zero => exact hst
  | succ n ih =>
    simp only [passesUpTo]
    split
    · exact ih (pass_keeps habove hslots hst)
    · exact pass_keeps habove hslots hst

/-- The passes stop at their limit, or at one that saw no gain anywhere. -/
theorem passesUpTo_settled (scoreOf : List ℤ → α) (above : α → α) (slots : List ℕ) (nPool n : ℕ) (st : Exchanging α) :
    let outcome := passesUpTo scoreOf above slots nPool n st
    outcome.passes ≤ n ∧ (outcome.passes < n → outcome.settled = true) ∧
      (outcome.settled = true → ∀ slot ∈ slots, ∀ cand < nPool, NoGain scoreOf above outcome.final (slot, cand)) := by
  induction n generalizing st with
  | zero => exact ⟨le_rfl, fun h => absurd h (Nat.lt_irrefl 0), fun h => nomatch h⟩
  | succ n ih =>
    simp only [passesUpTo]
    split
    · obtain ⟨hle, hearly, hgain⟩ := ih (pass scoreOf above slots nPool st)
      exact ⟨Nat.succ_le_succ hle, fun h => hearly (Nat.lt_of_succ_lt_succ h), hgain⟩
    · rename_i himproved
      obtain ⟨hsame, hgain⟩ := foldl_tryExchange_unimproved (Bool.not_eq_true _ ▸ himproved)
      refine ⟨Nat.succ_le_succ (Nat.zero_le n), fun _ => rfl, fun _ slot hslot cand hcand => ?_⟩
      have hthis := hgain (slot, cand) (List.pair_mem_product.mpr ⟨hslot, List.mem_range.mpr hcand⟩)
      rw [pass, hsame]
      exact hthis

end Exchange

/-! ## The initial selection -/

section Initial
variable {ρ : Type} (defaultRng : ℤ → Rng ℤ) (pool : List ρ) (nSelect : ℤ) (forced : List ℤ) (seed : ℤ)

/-- The pool's indices that are not forced. -/
def remaining : List ℤ := ((List.range pool.length).map Int.ofNat).filter fun i => i ∉ firstSeen forced

theorem mem_remaining {i : ℤ} : i ∈ remaining pool forced ↔ (0 ≤ i ∧ i < pool.length) ∧ i ∉ forced := by
  simp only [remaining, List.mem_filter, List.mem_map, List.mem_range, decide_eq_true_eq, mem_firstSeen]
  refine and_congr_left fun _ => ⟨?_, fun h => ⟨i.toNat, by omega, ?_⟩⟩
  · rintro ⟨n, hn, rfl⟩
    exact ⟨Int.natCast_nonneg n, by simpa using hn⟩
  · exact Int.toNat_of_nonneg h.1

theorem nodup_indices : ((List.range pool.length).map Int.ofNat).Nodup :=
  List.nodup_range.map fun _ _ h => Int.ofNat.inj h

theorem length_remaining : pool.length ≤ (remaining pool forced).length + (firstSeen forced).length := by
  have hsplit := List.length_eq_length_filter_add (l := (List.range pool.length).map Int.ofNat)
    fun i => decide (i ∉ firstSeen forced)
  have hforced : (((List.range pool.length).map Int.ofNat).filter fun i => !decide (i ∉ firstSeen forced)).length ≤
      (firstSeen forced).length := by
    refine List.Subperm.length_le (List.Nodup.subperm ((nodup_indices pool).filter _) fun i hi => ?_)
    simpa using (List.mem_filter.mp hi).2
  rw [List.length_map, List.length_range] at hsplit
  change pool.length = (remaining pool forced).length + _ at hsplit
  omega

theorem nodup_initialSelection : (initialSelection defaultRng pool nSelect forced seed).Nodup := by
  have hperm := (defaultRng seed).perm (remaining pool forced)
  have hshuffled : ((defaultRng seed).shuffle (remaining pool forced)).Nodup :=
    hperm.nodup_iff.mpr ((nodup_indices pool).filter _)
  refine List.nodup_append.mpr ⟨nodup_firstSeen forced, hshuffled.sublist (List.take_sublist _ _), ?_⟩
  rintro i hi j hj rfl
  have hmem := (mem_remaining pool forced).mp (hperm.subset (List.mem_of_mem_take hj))
  exact hmem.2 (mem_firstSeen.mp hi)

variable {nSelect}

theorem length_initialSelection (hforced : (firstSeen forced).length ≤ nSelect) (hpool : nSelect ≤ pool.length) :
    (initialSelection defaultRng pool nSelect forced seed).length = nSelect.toNat := by
  have hlen := length_remaining pool forced
  have hperm := ((defaultRng seed).perm (remaining pool forced)).length_eq
  rw [initialSelection, List.length_append, List.length_take]
  change _ + min _ ((defaultRng seed).shuffle (remaining pool forced)).length = _
  rw [hperm]
  omega

theorem rowAt_isSome {i : ℤ} (h : -pool.length ≤ i ∧ i < pool.length) : (rowAt pool i).isSome := by
  unfold rowAt
  split
  · rw [List.getElem?_eq_getElem (by omega)]; rfl
  · rw [if_pos (by omega), List.getElem?_eq_getElem (by omega)]; rfl

theorem initialSelection_inPool (hforced : ∀ i ∈ forced, -pool.length ≤ i ∧ i < pool.length) :
    ¬ (initialSelection defaultRng pool nSelect forced seed).any fun i => (rowAt pool i).isNone := by
  rw [List.any_eq_true]
  rintro ⟨i, hi, hnone⟩
  have hsome : (rowAt pool i).isSome := by
    rcases List.mem_append.mp hi with h | h
    · exact rowAt_isSome pool (hforced i (mem_firstSeen.mp h))
    · have hmem := (mem_remaining pool forced).mp
        (((defaultRng seed).perm (remaining pool forced)).subset (List.mem_of_mem_take h))
      exact rowAt_isSome pool (by omega)
  rw [Option.isNone_iff_eq_none.mp hnone] at hsome
  cases hsome

end Initial

/-- Outside its range `n_select` is refused; otherwise the selection has `n_select` distinct indices, the forced ones
first, scores no worse than the initial one, and no exchange gains more than the tolerance unless the passes ran out. -/
theorem fedorovSelect_improves {ρ α : Type} [LinearOrder α] (criterion : List ρ → α) (above : α → α)
    (habove : ∀ x, x ≤ above x) (slotOrder : SlotOrder) (defaultRng : ℤ → Rng ℤ) (pool : List ρ) (nSelect : ℤ)
    (forced : List ℤ) (hforced : ∀ i ∈ forced, -pool.length ≤ i ∧ i < pool.length) (seed maxIter : ℤ) :
    (nSelect < (firstSeen forced).length ∨ pool.length < nSelect →
      fedorovSelect criterion above slotOrder defaultRng pool nSelect forced seed maxIter = .error .nSelectOutOfRange) ∧
    ((firstSeen forced).length ≤ nSelect → nSelect ≤ pool.length → ∃ outcome,
      fedorovRun criterion above slotOrder defaultRng pool nSelect forced seed maxIter = .ok outcome ∧
      ∃ selected, fedorovSelect criterion above slotOrder defaultRng pool nSelect forced seed maxIter = .ok selected ∧
      selected = outcome.final.selected ∧
      selected.length = nSelect ∧ selected.Nodup ∧ firstSeen forced <+: selected ∧
      score criterion pool (initialSelection defaultRng pool nSelect forced seed) ≤ score criterion pool selected ∧
      outcome.passes ≤ maxIter.toNat ∧
      (outcome.passes < maxIter.toNat ∨ outcome.settled →
        ∀ slot : ℕ, (firstSeen forced).length ≤ slot → slot < nSelect → ∀ cand < pool.length, (cand : ℤ) ∉ selected →
          score criterion pool (selected.set slot cand) ≤ above (score criterion pool selected))) := by
  refine ⟨fun hrange => by rw [fedorovSelect, fedorovRun, if_pos hrange]; rfl, fun hlow hhigh => ?_⟩
  have hrun : fedorovRun criterion above slotOrder defaultRng pool nSelect forced seed maxIter =
      .ok (passesUpTo (score criterion pool) above (slotOrder.slots (firstSeen forced).length nSelect.toNat) pool.length
        maxIter.toNat (started criterion pool (initialSelection defaultRng pool nSelect forced seed))) := by
    rw [fedorovRun, if_neg (by omega), if_neg (initialSelection_inPool defaultRng pool forced seed hforced)]
  have hslots := slotOrder.perm (firstSeen forced).length nSelect.toNat
  have hstart : Keeps (score criterion pool) (firstSeen forced) nSelect.toNat
      (score criterion pool (initialSelection defaultRng pool nSelect forced seed))
      (started criterion pool (initialSelection defaultRng pool nSelect forced seed)) := {
    size := length_initialSelection defaultRng pool forced seed hlow hhigh
    distinct := nodup_initialSelection defaultRng pool nSelect forced seed
    starts := List.prefix_append _ _
    best := rfl
    better := le_rfl }
  have hkept := passesUpTo_keeps habove (fun s hs => (List.mem_range'_1.mp (hslots.subset hs)).1) pool.length
    maxIter.toNat hstart
  obtain ⟨hpasses, hearly, hgain⟩ := passesUpTo_settled (score criterion pool) above
    (slotOrder.slots (firstSeen forced).length nSelect.toNat) pool.length maxIter.toNat
    (started criterion pool (initialSelection defaultRng pool nSelect forced seed))
  refine ⟨_, hrun, _, by rw [fedorovSelect, hrun]; rfl, rfl, ?_, hkept.distinct, hkept.starts, ?_, hpasses, ?_⟩
  · rw [hkept.size]
    omega
  · rw [← hkept.best]
    exact hkept.better
  · intro hstop slot hlo hhi cand hcand hfresh
    have hsettled := hstop.elim hearly id
    rw [← hkept.best]
    exact hgain hsettled slot (hslots.symm.subset (List.mem_range'_1.mpr (by omega))) cand hcand hfresh

def ascending : SlotOrder := ⟨fun first stop => List.range' first (stop - first), fun _ _ => .refl _⟩

/-- The sum of the selected rows, and the tolerance of the source. -/
def sumOf (rows : List ℚ) : ℚ := rows.foldr (· + ·) 0

def byTolerance (x : ℚ) : ℚ := x + 1 / 1000000000000

theorem le_byTolerance (x : ℚ) : x ≤ byTolerance x := by
  have h : x + 0 ≤ x + 1 / 1000000000000 := Rat.add_le_add_left.mpr (by decide +kernel)
  rwa [Rat.add_zero] at h

theorem fedorovSelect_improves_three : ∃ selected,
    fedorovSelect sumOf byTolerance ascending inOrder [1, 2, 3] 2 [0] 0 100 = .ok selected ∧ selected.length = (2 : ℤ) ∧
      selected.Nodup ∧ [0] <+: selected := by
  obtain ⟨outcome, -, selected, hselected, -, hlen, hnodup, hprefix, -⟩ :=
    (fedorovSelect_improves sumOf byTolerance le_byTolerance ascending inOrder [1, 2, 3] 2 [0] (by decide) 0 100).2
      (by decide) (by decide)
  exact ⟨selected, hselected, hlen, hnodup, hprefix⟩

/-- A gain of half the tolerance is left on the table. -/
theorem not_fedorovSelect_optimal : ¬ ∀ (criterion : List ℚ → ℚ) (slotOrder : SlotOrder) (defaultRng : ℤ → Rng ℤ)
    (pool : List ℚ) (nSelect : ℤ) (forced : List ℤ) (seed maxIter : ℤ),
    (∀ i ∈ forced, -pool.length ≤ i ∧ i < pool.length) → (firstSeen forced).length ≤ nSelect → nSelect ≤ pool.length →
    ∃ outcome, fedorovRun criterion byTolerance slotOrder defaultRng pool nSelect forced seed maxIter = .ok outcome ∧
      (outcome.settled → ∀ slot : ℕ, (firstSeen forced).length ≤ slot → slot < nSelect → ∀ cand < pool.length,
        (cand : ℤ) ∉ outcome.final.selected →
        score criterion pool (outcome.final.selected.set slot cand) ≤ score criterion pool outcome.final.selected) := by
  intro h
  obtain ⟨outcome, hrun, hoptimal⟩ := h sumOf ascending inOrder [0, 1 / 2000000000000] 1 [] 0 100 (by simp) (by decide)
    (by decide)
  have hvalue : fedorovRun sumOf byTolerance ascending inOrder [0, 1 / 2000000000000] 1 [] 0 100 =
      .ok ⟨1, true, ⟨[0], 0, false⟩⟩ := by decide +kernel
  obtain rfl := Except.ok.inj (hrun.symm.trans hvalue)
  have hgain := hoptimal rfl 0 (by decide) (by decide) 1 (by decide) (by decide)
  revert hgain
  decide +kernel

end Shapeflow.BlockDesign
