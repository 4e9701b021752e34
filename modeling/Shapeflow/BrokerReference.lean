import Mathlib.Algebra.Order.Ring.Int
import Mathlib.Algebra.BigOperators.Group.List.Basic
import Mathlib.Algebra.Order.BigOperators.Group.List
import Mathlib.Data.List.Sort
import Mathlib.Data.Prod.Lex
import Mathlib.Data.String.Basic
import Mathlib.Tactic.Linarith
import Shapeflow.BrokerOffer
import Shapeflow.Fallible
import Shapeflow.SortedLists

set_option autoImplicit false

/-!
# The reference broker

Every admissible pair of an item and a form competes in one ranking, the cheapest
first. What is taken uses up the allowance of the round; what no longer fits is
passed over, and a cheaper form of the same item has come before it.
-/
namespace Shapeflow.Broker

/-- A plan's cost in token equivalents, from its own estimates only. -/
def RequestDescriptor.tokens (r : RequestDescriptor) : ℤ :=
  r.estUncachedPrefill + r.estCachedPrefill + r.estDecode

def Offer.forms (o : Offer) : List Form := if o.p1 = none then [.p0] else [.p0, .p1]

def planWeight (offer : Offer) (form : Form) : Except BrokerError ℤ := do
  let plan ← offer.planFor form
  pure (plan.requests.map RequestDescriptor.tokens).sum

def Form.value : Form → String
  | p0 => "P0"
  | p1 => "P1"

/-- A pair of an item and a form in the ranking. -/
structure Candidate where
  weight : ℤ
  itemId : String
  form : Form
deriving DecidableEq, Repr

/-- `key=lambda c: (c[0], c[1], c[2].value)` -/
def Candidate.Le (a b : Candidate) : Prop :=
  a.weight < b.weight ∨ a.weight = b.weight ∧
    (a.itemId < b.itemId ∨ a.itemId = b.itemId ∧ a.form.value ≤ b.form.value)

instance (a b : Candidate) : Decidable (a.Le b) := inferInstanceAs (Decidable (_ ∨ _))

/-- What the loop has admitted, in which form, and what that uses. -/
structure Round where
  admitted : List String
  form : Dict String Form
  used : ℤ
  joint : form.keys = admitted

def Round.start : Round := ⟨[], Dict.empty, 0, rfl⟩

theorem joint_set {r : Round} {c : Candidate} (h : c.itemId ∉ r.form.keys) :
    (r.form.set c.itemId c.form).keys = r.admitted ++ [c.itemId] := by
  rw [Dict.keys_set, if_neg h, r.joint]

def Round.accept (r : Round) (c : Candidate) (h : c.itemId ∉ r.form.keys) : Round where
  admitted := r.admitted ++ [c.itemId]
  form := r.form.set c.itemId c.form
  used := r.used + c.weight
  joint := joint_set h

def Round.consider (capacity : ℤ) (r : Round) (c : Candidate) : Round :=
  if h : c.itemId ∈ r.form.keys then r
  else if capacity < r.used + c.weight then r
  else r.accept c h

structure GreedyJointBroker where
  capacityTokens : ℤ := 8192
  allowP1 : Bool := true
deriving DecidableEq, Repr

namespace GreedyJointBroker
variable (b : GreedyJointBroker)

/-- The forms of an offer that the broker may choose. -/
def allowed (o : Offer) : List Form := o.forms.filter fun f => f ≠ .p1 ∨ b.allowP1

def candidatesOf (o : Offer) : Except BrokerError (List Candidate) :=
  (b.allowed o).mapM fun f => do
    let weight ← planWeight o f
    pure ⟨weight, o.itemId, f⟩

def candidates (offers : List Offer) : Except BrokerError (List Candidate) := do
  let perOffer ← offers.mapM b.candidatesOf
  pure perOffer.flatten

def run (candidates : List Candidate) : Round :=
  (candidates.insertionSort Candidate.Le).foldl (Round.consider b.capacityTokens) Round.start

def deferred (offers : List Offer) (r : Round) : List String :=
  (offers.map Offer.itemId).filter fun i => i ∉ r.form.keys

theorem disjoint_deferred (offers : List Offer) (r : Round) : ∀ i ∈ r.admitted, i ∉ deferred offers r := by
  intro i hi hdeferred
  have hnot := of_decide_eq_true (List.mem_filter.mp hdeferred).2
  exact hnot (r.joint ▸ hi)

def decide (offers : List Offer) (snapshot : SchedulerSnapshot) (_budgetNs : ℤ) :
    Except BrokerError Decision := do
  let candidates ← b.candidates offers
  let r := b.run candidates
  pure {
    admitted := r.admitted
    form := r.form
    deferred := deferred offers r
    snapshotVersion := snapshot.version
    solveNs := 0
    reason := "greedy joint: " ++ toString r.used ++ "/" ++ toString b.capacityTokens ++ " tokens"
    formed := fun _ hi => r.joint ▸ hi
    admittedOnly := fun _ hi => r.joint ▸ hi
    disjoint := disjoint_deferred offers r }

end GreedyJointBroker

/-! ## The ranking -/

theorem Form.value_injective {f g : Form} (h : f.value = g.value) : f = g := by
  cases f <;> cases g <;> first | rfl | exact absurd h (by decide)

namespace Candidate

/-- The ranking key, as a tuple in the order of tuples. -/
def key (c : Candidate) : Lex (ℤ × Lex (String × String)) := toLex (c.weight, toLex (c.itemId, c.form.value))

theorem le_iff {a b : Candidate} : a.Le b ↔ a.key ≤ b.key := by
  rw [key, key, Prod.Lex.toLex_le_toLex, Prod.Lex.toLex_le_toLex]
  rfl

theorem key_injective {a b : Candidate} (h : a.key = b.key) : a = b := by
  have hw : (a.weight, toLex (a.itemId, a.form.value)) = (b.weight, toLex (b.itemId, b.form.value)) :=
    toLex.injective h
  obtain ⟨hweight, hrest⟩ := Prod.mk.inj hw
  obtain ⟨hid, hvalue⟩ := Prod.mk.inj (toLex.injective hrest)
  have hform := Form.value_injective hvalue
  cases a
  cases b
  simp only at hweight hid hform
  rw [hweight, hid, hform]

instance le_antisymm : Std.Antisymm Candidate.Le :=
  ⟨fun _ _ h h' => key_injective ((le_iff.mp h).antisymm (le_iff.mp h'))⟩

instance le_total : Std.Total Candidate.Le :=
  ⟨fun a b => (Std.Total.total a.key b.key).imp le_iff.mpr le_iff.mpr⟩

instance le_trans : IsTrans Candidate Candidate.Le :=
  ⟨fun _ _ _ h h' => le_iff.mpr ((le_iff.mp h).trans (le_iff.mp h'))⟩

end Candidate

/-! ## The loop -/

section
variable {capacity : ℤ}

theorem Round.consider_taken {r : Round} {c : Candidate} (h : c.itemId ∈ r.form.keys) :
    r.consider capacity c = r := dif_pos h

theorem Round.consider_over {r : Round} {c : Candidate} (h : c.itemId ∉ r.form.keys)
    (hover : capacity < r.used + c.weight) : r.consider capacity c = r := by
  rw [consider, dif_neg h, if_pos hover]

theorem Round.consider_fits {r : Round} {c : Candidate} (h : c.itemId ∉ r.form.keys)
    (hfits : r.used + c.weight ≤ capacity) : r.consider capacity c = r.accept c h := by
  rw [consider, dif_neg h, if_neg hfits.not_gt]

/-- A step leaves the round as it is, or takes a candidate that fits. -/
theorem Round.consider_cases (capacity : ℤ) (r : Round) (c : Candidate) :
    r.consider capacity c = r ∧ (c.itemId ∈ r.form.keys ∨ capacity < r.used + c.weight) ∨
      ∃ h : c.itemId ∉ r.form.keys, r.used + c.weight ≤ capacity ∧ r.consider capacity c = r.accept c h := by
  by_cases h : c.itemId ∈ r.form.keys
  · exact Or.inl ⟨consider_taken h, Or.inl h⟩
  · rcases lt_or_ge capacity (r.used + c.weight) with hover | hfits
    · exact Or.inl ⟨consider_over h hover, Or.inr hover⟩
    · exact Or.inr ⟨h, hfits, consider_fits h hfits⟩

/-- What holds of the start and of every admitted candidate holds of the run. -/
theorem Round.run_induction {P : Round → Prop} {l : List Candidate}
    (hstep : ∀ r, P r → ∀ c ∈ l, ∀ h : c.itemId ∉ r.form.keys, r.used + c.weight ≤ capacity → P (r.accept c h))
    (r : Round) (hr : P r) : P (l.foldl (Round.consider capacity) r) := by
  induction l generalizing r with
  | nil => exact hr
  | cons c l ih =>
    have hl : ∀ r, P r → ∀ c ∈ l, ∀ h : c.itemId ∉ r.form.keys, r.used + c.weight ≤ capacity → P (r.accept c h) :=
      fun r hr c hc => hstep r hr c (List.mem_cons_of_mem _ hc)
    rw [List.foldl_cons]
    rcases consider_cases capacity r c with ⟨hsame, -⟩ | ⟨h, hfits, htake⟩
    · rw [hsame]
      exact ih hl r hr
    · rw [htake]
      exact ih hl _ (hstep r hr c (by simp) h hfits)

/-- What is admitted stays, and nothing that is used comes back. -/
theorem Round.grows {l : List Candidate} (hweight : ∀ c ∈ l, 0 ≤ c.weight) (r : Round) :
    r.form.keys ⊆ (l.foldl (Round.consider capacity) r).form.keys ∧
      r.used ≤ (l.foldl (Round.consider capacity) r).used := by
  refine run_induction (P := fun r' => r.form.keys ⊆ r'.form.keys ∧ r.used ≤ r'.used) ?_ r
    ⟨List.Subset.refl _, le_refl _⟩
  rintro r' ⟨hkeys, hused⟩ c hc h -
  have hc := hweight c hc
  refine ⟨fun i hi => Dict.mem_keys_set.mpr (Or.inl (hkeys hi)), ?_⟩
  change r.used ≤ r'.used + c.weight
  omega

/-- Every candidate is of an admitted item or no longer fits at the end. -/
theorem Round.passed_over {l : List Candidate} (hweight : ∀ c ∈ l, 0 ≤ c.weight) (r : Round) :
    ∀ c ∈ l, c.itemId ∈ (l.foldl (Round.consider capacity) r).form.keys ∨
      capacity < (l.foldl (Round.consider capacity) r).used + c.weight := by
  induction l generalizing r with
  | nil => exact fun c hc => absurd hc List.not_mem_nil
  | cons d l ih =>
    have hl : ∀ c ∈ l, 0 ≤ c.weight := fun c hc => hweight c (List.mem_cons_of_mem d hc)
    intro c hc
    rw [List.foldl_cons]
    rcases List.mem_cons.mp hc with rfl | hc
    · obtain ⟨hkeys, hused⟩ := @grows capacity _ hl (r.consider capacity c)
      rcases consider_cases capacity r c with ⟨hsame, hin | hover⟩ | ⟨h, -, htake⟩
      · exact Or.inl (hkeys (hsame.symm ▸ hin))
      · right
        rw [hsame] at hused ⊢
        omega
      · left
        apply hkeys
        rw [htake]
        exact Dict.mem_keys_set.mpr (Or.inr rfl)
    · exact ih hl _ c hc

end

/-! ## A decision -/

theorem Offer.planFor_of_mem {o : Offer} {f : Form} (h : f ∈ o.forms) : ∃ plan, o.planFor f = .ok plan := by
  cases f with
  | p0 => exact ⟨_, rfl⟩
  | p1 =>
    cases hp : o.p1 with
    | none =>
      rw [forms, if_pos hp] at h
      exact absurd h (by decide)
    | some plan => exact ⟨.p1 plan, by rw [planFor, hp]⟩

/-- The weight of a plan that is offered. -/
def Offer.weight (o : Offer) (f : Form) : ℤ := (planWeight o f).toOption.getD 0

theorem planWeight_of_mem {o : Offer} {f : Form} (h : f ∈ o.forms) : planWeight o f = .ok (o.weight f) := by
  obtain ⟨plan, hplan⟩ := Offer.planFor_of_mem h
  rw [Offer.weight, planWeight, hplan]
  rfl

/-- No plan of the offer estimates a negative cost. -/
def Offer.Nonnegative (o : Offer) : Prop :=
  ∀ f plan, o.planFor f = .ok plan → ∀ r ∈ plan.requests,
    0 ≤ r.estUncachedPrefill ∧ 0 ≤ r.estCachedPrefill ∧ 0 ≤ r.estDecode

theorem Offer.weight_nonneg {o : Offer} (ho : o.Nonnegative) (f : Form) : 0 ≤ o.weight f := by
  rw [weight, planWeight]
  cases h : o.planFor f with
  | error e => exact le_refl 0
  | ok plan =>
    refine List.sum_nonneg fun t ht => ?_
    obtain ⟨r, hr, rfl⟩ := List.mem_map.mp ht
    obtain ⟨h1, h2, h3⟩ := ho f plan h r hr
    rw [RequestDescriptor.tokens]
    omega

/-- What the forms chosen for the offers cost together. -/
def admittedWeight (offers : List Offer) (form : Dict String Form) : ℤ :=
  (offers.map fun o => ((form.get? o.itemId).map o.weight).getD 0).sum

theorem admittedWeight_empty (offers : List Offer) : admittedWeight offers Dict.empty = 0 := by
  rw [admittedWeight, List.sum_eq_zero]
  intro x hx
  obtain ⟨o, -, rfl⟩ := List.mem_map.mp hx
  rfl

theorem admittedWeight_perm {offers offers' : List Offer} (h : offers'.Perm offers) (form : Dict String Form) :
    admittedWeight offers' form = admittedWeight offers form := (h.map _).sum_eq

/-- One more item adds the weight of its form. -/
theorem admittedWeight_set {offers : List Offer} (hids : (offers.map Offer.itemId).Nodup) {o : Offer}
    (ho : o ∈ offers) {form : Dict String Form} (hnew : o.itemId ∉ form.keys) (f : Form) :
    admittedWeight offers (form.set o.itemId f) = admittedWeight offers form + o.weight f := by
  have hperm := List.perm_cons_erase ho
  have hids : ((o :: offers.erase o).map Offer.itemId).Nodup := (hperm.map _).nodup_iff.mp hids
  rw [← admittedWeight_perm hperm.symm form, ← admittedWeight_perm hperm.symm, admittedWeight, admittedWeight, List.map_cons, List.map_cons, List.sum_cons, List.sum_cons, Dict.get?_set_self,
    Dict.get?_eq_none_iff.mpr hnew]
  have hrest : (offers.erase o).map (fun p => (((form.set o.itemId f).get? p.itemId).map p.weight).getD 0) =
      (offers.erase o).map fun p => ((form.get? p.itemId).map p.weight).getD 0 := by
    refine List.map_congr_left fun p hp => ?_
    rw [Dict.get?_set_ne _ _ fun hsame => ?_]
    rw [List.map_cons, List.nodup_cons] at hids
    exact hids.1 (hsame ▸ List.mem_map_of_mem hp)
  rw [hrest]
  simp only [Option.map_some, Option.getD_some, Option.map_none, Option.getD_none]
  ring

namespace GreedyJointBroker
variable (b : GreedyJointBroker)

theorem forms_of_allowed {o : Offer} {f : Form} (h : f ∈ b.allowed o) : f ∈ o.forms := List.mem_of_mem_filter h

/-- The ranking's entries of one offer. -/
def entriesOf (o : Offer) : List Candidate := (b.allowed o).map fun f => ⟨o.weight f, o.itemId, f⟩

theorem candidatesOf_eq (o : Offer) : b.candidatesOf o = .ok (b.entriesOf o) := by
  rw [candidatesOf, Fallible.mapM_ok, entriesOf, List.map_map]
  refine List.map_congr_left fun f hf => ?_
  rw [planWeight_of_mem (b.forms_of_allowed hf)]
  rfl

theorem candidates_eq (offers : List Offer) : b.candidates offers = .ok (offers.flatMap b.entriesOf) := by
  have hall : offers.mapM b.candidatesOf = .ok (offers.map b.entriesOf) := by
    rw [Fallible.mapM_ok, List.map_map]
    exact List.map_congr_left fun o _ => b.candidatesOf_eq o
  rw [candidates, hall, Fallible.ok_bind, List.flatMap_def]
  rfl

variable {b} in
theorem mem_entries {offers : List Offer} {c : Candidate} :
    c ∈ offers.flatMap b.entriesOf ↔
      ∃ o ∈ offers, ∃ f ∈ b.allowed o, c = ⟨o.weight f, o.itemId, f⟩ := by
  simp only [List.mem_flatMap, entriesOf, List.mem_map, eq_comm]

/-- The round the broker ends with. -/
def finalRound (offers : List Offer) : Round := b.run (offers.flatMap b.entriesOf)

theorem finalRound_perm {offers offers' : List Offer} (h : offers'.Perm offers) :
    b.finalRound offers' = b.finalRound offers := by
  rw [finalRound, finalRound, run, run, SortedLists.insertionSort_eq_of_perm _ (h.flatMap_right _)]

/-- The round as the loop keeps it: items of the snapshot in forms allowed, weighed as they are. -/
structure Kept (offers : List Offer) (r : Round) : Prop where
  offered : ∀ i f, r.form.get? i = some f → ∃ o ∈ offers, o.itemId = i ∧ f ∈ b.allowed o
  weighed : r.used = admittedWeight offers r.form
  within : r.admitted = [] ∧ r.used = 0 ∨ 0 ≤ r.used ∧ r.used ≤ b.capacityTokens

theorem kept_start (offers : List Offer) : b.Kept offers Round.start where
  offered := fun i f h => by
    rw [Round.start, Dict.get?_empty] at h
    cases h
  weighed := (admittedWeight_empty offers).symm
  within := Or.inl ⟨rfl, rfl⟩

theorem kept_finalRound {offers : List Offer} (hids : (offers.map Offer.itemId).Nodup)
    (hcost : ∀ o ∈ offers, o.Nonnegative) : b.Kept offers (b.finalRound offers) := by
  refine Round.run_induction (fun r hr c hc h hfits => ?_) Round.start (b.kept_start offers)
  obtain ⟨o, ho, f, hf, rfl⟩ := mem_entries.mp ((List.mem_insertionSort _).mp hc)
  have hused : 0 ≤ r.used := hr.within.elim (fun hw => hw.2.ge) And.left
  refine ⟨fun i g hg => ?_, ?_, Or.inr ⟨add_nonneg hused (Offer.weight_nonneg (hcost o ho) f), hfits⟩⟩
  · by_cases hi : i = o.itemId
    · subst hi
      have hset : (r.form.set o.itemId f).get? o.itemId = some g := hg
      rw [Dict.get?_set_self, Option.some.injEq] at hset
      exact ⟨o, ho, rfl, hset ▸ hf⟩
    · have hset : (r.form.set o.itemId f).get? i = some g := hg
      rw [Dict.get?_set_ne _ _ hi] at hset
      exact hr.offered i g hset
  · change r.used + o.weight f = admittedWeight offers (r.form.set o.itemId f)
    rw [admittedWeight_set hids ho h, hr.weighed]

/-- No form of an item left out would still have fitted. -/
theorem finalRound_maximal {offers : List Offer} (hcost : ∀ o ∈ offers, o.Nonnegative) {o : Offer}
    (ho : o ∈ offers) (hout : o.itemId ∉ (b.finalRound offers).form.keys) {f : Form} (hf : f ∈ b.allowed o) :
    b.capacityTokens < (b.finalRound offers).used + o.weight f := by
  have hweight : ∀ c ∈ (offers.flatMap b.entriesOf).insertionSort Candidate.Le, 0 ≤ c.weight := by
    intro c hc
    obtain ⟨o, ho, f, -, rfl⟩ := mem_entries.mp ((List.mem_insertionSort _).mp hc)
    exact Offer.weight_nonneg (hcost o ho) f
  have hmem : (⟨o.weight f, o.itemId, f⟩ : Candidate) ∈
      (offers.flatMap b.entriesOf).insertionSort Candidate.Le :=
    (List.mem_insertionSort _).mpr (mem_entries.mpr ⟨o, ho, f, hf, rfl⟩)
  exact (Round.passed_over hweight Round.start _ hmem).resolve_left hout

/-- Admitted and deferred items are the offered ones. -/
theorem partition_finalRound {offers : List Offer} (hids : (offers.map Offer.itemId).Nodup)
    (hcost : ∀ o ∈ offers, o.Nonnegative) :
    ((b.finalRound offers).admitted ++ deferred offers (b.finalRound offers)).Perm (offers.map Offer.itemId) := by
  have hkept := b.kept_finalRound hids hcost
  generalize b.finalRound offers = r at hkept
  have hadmitted : r.admitted.Nodup := r.joint ▸ r.form.keys_nodup
  refine (List.perm_ext_iff_of_nodup ?_ hids).mpr fun i => ?_
  · exact List.nodup_append'.mpr ⟨hadmitted, hids.filter _, disjoint_deferred offers r⟩
  · rw [List.mem_append, deferred, List.mem_filter, ← r.joint]
    constructor
    · rintro (hi | ⟨hi, -⟩)
      · obtain ⟨f, hf⟩ := Dict.mem_keys_iff.mp hi
        obtain ⟨o, ho, rfl, -⟩ := hkept.offered i f hf
        exact List.mem_map_of_mem ho
      · exact hi
    · intro hi
      by_cases hin : i ∈ r.form.keys
      · exact Or.inl hin
      · exact Or.inr ⟨hi, decide_eq_true hin⟩

/-- One page, to be summarised or selected from. -/
def pageOffer : Offer where
  itemId := "page"
  boundary := .h
  unitId := "unit"
  p0 := ⟨[⟨.pageP0Summary, "summary", 64, 20, 5, 10⟩], List.cons_ne_nil _ _⟩
  submittedAtNs := 0
  p1 := some ⟨⟨.pageP1SelectorBatch, "selector", 64, 10, 0, 5⟩, ⟨.finite 1, 3⟩⟩

theorem pageOffer_nonnegative : ∀ o ∈ [pageOffer], o.Nonnegative := by
  intro o ho f plan hplan r hr
  rw [List.mem_singleton.mp ho] at hplan
  cases f with
  | p0 =>
    cases hplan
    rw [List.mem_singleton.mp hr]
    decide
  | p1 =>
    cases hplan
    rw [List.mem_singleton.mp hr]
    decide

def firstSnapshot : SchedulerSnapshot := ⟨⟨"epoch", 1⟩, 0, ⟨Dict.empty, by simp⟩⟩

end GreedyJointBroker

end Shapeflow.Broker
