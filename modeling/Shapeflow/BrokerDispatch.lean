import Mathlib.Data.List.Nodup
import Shapeflow.BrokerDriver

set_option autoImplicit false

/-!
# What a tick over the simulated host dispatches

Every offer ends a tick either pending with nothing sent or sent once under one
form, as far as the decision that lands admits each item once.
-/
namespace Shapeflow.Broker
open Script

/-- Every admitted item has an offer, a form and the plan of that form. -/
def Dispatchable (offers : List Offer) (decision : Decision) : Prop :=
  ∀ i ∈ decision.admitted, ∃ o f plan, (byId offers).get? i = some o ∧
    decision.form.get? i = some f ∧ o.planFor f = .ok plan

theorem byId_get {offers : List Offer} {i : String} {o : Offer} (h : (byId offers).get? i = some o) :
    o ∈ offers ∧ o.itemId = i := by
  have hmem := Dict.mem_of_get?_ofPairs h
  simp only [List.mem_map, Prod.mk.injEq] at hmem
  obtain ⟨o', ho', hid, rfl⟩ := hmem
  exact ⟨ho', hid⟩

theorem mem_byId {offers : List Offer} {i : String} :
    i ∈ (byId offers).keys ↔ ∃ o ∈ offers, o.itemId = i := by
  simp [byId, Dict.mem_keys_ofPairs]

theorem formsOffered_ok {offered : Dict String Offer} {entries : List (String × Form)} {u : Unit}
    (h : formsOffered offered entries = .ok u) {i : String} (hi : (i, .p1) ∈ entries) :
    ∃ o plan, offered.get? i = some o ∧ o.p1 = some plan := by
  induction entries with
  | nil => simp at hi
  | cons e rest ih =>
    obtain ⟨j, f⟩ := e
    cases f with
    | p0 =>
      simp only [formsOffered] at h
      simp only [List.mem_cons, Prod.mk.injEq, reduceCtorEq, and_false, false_or] at hi
      exact ih h hi
    | p1 =>
      simp only [formsOffered] at h
      cases ho : offered.get? j with
      | none => simp [ho] at h
      | some o =>
        cases hp : o.p1 with
        | none => simp [ho, hp] at h
        | some plan =>
          simp only [ho, hp] at h
          simp only [List.mem_cons, Prod.mk.injEq, and_true] at hi
          rcases hi with hij | hrest
          · exact ⟨o, plan, hij ▸ ho, hp⟩
          · exact ih h hrest

theorem Dispatchable.of_answerable {offers : List Offer} {decision : Decision} {u : Unit}
    (h : assertDecisionIsAnswerable decision offers = .ok u) : Dispatchable offers decision := by
  intro i hi
  unfold assertDecisionIsAnswerable at h
  dsimp only at h
  split at h
  · rename_i hknown
    have hkey : i ∈ (byId offers).keys := by
      by_contra hno
      have hmem : i ∈ (decision.admitted ++ decision.deferred).filter (· ∉ (byId offers).keys) := by
        simp [hi, hno]
      rw [hknown] at hmem
      simp at hmem
    obtain ⟨o, ho⟩ := Dict.mem_keys_iff.mp hkey
    obtain ⟨f, hf⟩ := decision.form_get hi
    cases f with
    | p0 => exact ⟨o, .p0, .p0 o.p0, ho, hf, rfl⟩
    | p1 =>
      obtain ⟨o', plan, ho', hplan⟩ := formsOffered_ok h (Dict.mem_of_get? hf)
      have hsame : o' = o := Option.some.inj (ho'.symm.trans ho)
      subst hsame
      exact ⟨o', .p1, .p1 plan, ho', hf, by simp [Offer.planFor, hplan]⟩
  · simp at h

theorem p0Only_form {offers : List Offer} {snapshot : SchedulerSnapshot} {reason : String} {i : String}
    {f : Form} (h : (p0Only offers snapshot reason).form.get? i = some f) : f = .p0 := by
  have hmem := Dict.mem_of_get?_ofPairs h
  simp only [List.mem_map, Prod.mk.injEq] at hmem
  obtain ⟨_, _, _, hf⟩ := hmem
  exact hf.symm

/-- P0 is always offered. -/
theorem Dispatchable.p0Only (offers : List Offer) (snapshot : SchedulerSnapshot) (reason : String) :
    Dispatchable offers (p0Only offers snapshot reason) := by
  intro i hi
  obtain ⟨f, hf⟩ := Decision.form_get hi
  obtain ⟨o, ho⟩ := Dict.mem_keys_iff.mp (mem_byId.mpr (List.mem_map.mp hi))
  have hp0 := p0Only_form hf
  subst hp0
  exact ⟨o, .p0, .p0 o.p0, ho, hf, rfl⟩

namespace SimulatedHost

/-- What one admitted item adds to the log. -/
def sending (offered : Dict String Offer) (form : Dict String Form) (i : String) : List Dispatch :=
  match offered.get? i, form.get? i with
  | some o, some f =>
    match o.planFor f with
    | .ok plan => dispatchesOf i f plan.requests
    | .error _ => []
  | _, _ => []

theorem sending_eq {offered : Dict String Offer} {form : Dict String Form} {i : String} {o : Offer}
    {f : Form} {plan : Plan} (ho : offered.get? i = some o) (hf : form.get? i = some f)
    (hplan : o.planFor f = .ok plan) : sending offered form i = dispatchesOf i f plan.requests := by
  simp only [sending, ho, hf, hplan]

theorem dispatchItem_run {offered : Dict String Offer} {form : Dict String Form} {i : String} {o : Offer}
    {f : Form} {plan : Plan} (ho : offered.get? i = some o) (hf : form.get? i = some f)
    (hplan : o.planFor f = .ok plan) (h : SimulatedHost) :
    ∃ sent, dispatchItem offered form i h =
      (.ok sent, { h with dispatches := h.dispatches ++ sending offered form i }) := by
  refine ⟨(i, plan.requests.length), ?_⟩
  rw [sending_eq ho hf hplan]
  simp only [dispatchItem, ho, hf, Option.elim_some]
  change (check (o.planFor f) >>= _) h = _
  rw [hplan]
  rfl

theorem forEach_run {offered : Dict String Offer} {form : Dict String Form} {admitted : List String}
    (hall : ∀ i ∈ admitted, ∃ o f plan, offered.get? i = some o ∧ form.get? i = some f ∧
      o.planFor f = .ok plan) (h : SimulatedHost) :
    ∃ sent, forEach (dispatchItem offered form) admitted h =
      (.ok sent, { h with dispatches := h.dispatches ++ admitted.flatMap (sending offered form) }) := by
  induction admitted generalizing h with
  | nil => exact ⟨[], by simp [forEach]⟩
  | cons i rest ih =>
    obtain ⟨o, f, plan, ho, hf, hplan⟩ := hall i (by simp)
    obtain ⟨b, hb⟩ := dispatchItem_run ho hf hplan h
    obtain ⟨bs, hbs⟩ := ih (fun j hj => hall j (by simp [hj]))
      { h with dispatches := h.dispatches ++ sending offered form i }
    refine ⟨b :: bs, ?_⟩
    rw [forEach, bind_of_ok hb, bind_of_ok hbs]
    simp [List.append_assoc]

/-- The host after it has carried out a decision. -/
def carriedOut (h : SimulatedHost) (decision : Decision) : SimulatedHost :=
  { h with
    dispatches := h.dispatches ++ decision.admitted.flatMap (sending (byId h.offers) decision.form)
    committed := h.committed ++ [decision]
    offers := h.offers.filter fun o => o.itemId ∉ decision.admitted }

theorem materialize_stale (decision : Decision) {snapshot : SchedulerSnapshot} {h : SimulatedHost}
    (hstale : snapshot.version.tick ∈ h.staleAtTicks) :
    materialize decision snapshot h = (.error (.staleSnapshot snapshot.version), h) := by
  simp only [materialize, getStore_bind, hstale, if_true, raise_run]

theorem materialize_run {decision : Decision} {snapshot : SchedulerSnapshot} {h : SimulatedHost}
    (hfresh : snapshot.version.tick ∉ h.staleAtTicks) (hd : Dispatchable h.offers decision) :
    ∃ result, materialize decision snapshot h = (.ok result, h.carriedOut decision) := by
  obtain ⟨sent, hsent⟩ := forEach_run hd h
  refine ⟨?_, ?_⟩
  · exact { materialized := decision.admitted, dispatched := Dict.ofPairs sent,
            degradedToP0 := decision.admitted.filter fun i =>
              decision.failClosed && decision.form.get? i = some Form.p0 }
  · simp only [materialize, getStore_bind, hfresh, if_false]
    rw [bind_of_ok hsent]
    rfl

end SimulatedHost
open SimulatedHost

/-- The sub-requests among `sent` that an item's id names. -/
def sentFor (o : Offer) (sent : List Dispatch) : List Dispatch := sent.filter (·.itemId = o.itemId)

/-- One form of the offer was sent, each request of its plan once. -/
def SentOnce (o : Offer) (sent : List Dispatch) : Prop :=
  ∃ f plan, o.planFor f = .ok plan ∧ (∀ x ∈ sentFor o sent, x.form = f) ∧
    (sentFor o sent).map (·.ordinal) = List.range plan.requests.length

/-- Between the two hosts every offer stayed pending with nothing sent, or left and was sent once. -/
def Settled (before after : SimulatedHost) : Prop :=
  ∃ sent, after.dispatches = before.dispatches ++ sent ∧ ∀ o ∈ before.offers,
    (o ∈ after.offers ∧ sentFor o sent = []) ∨ (o ∉ after.offers ∧ SentOnce o sent)

/-- The sub-requests of an offer's plan, where it has one of that form. -/
def requestCount (f : Form) (o : Offer) : Option ℕ :=
  match o.planFor f with
  | .ok plan => some plan.requests.length
  | .error _ => none

/-- No item is admitted twice, and offers that share an admitted id ask for equally many
    sub-requests. -/
def SingleSend (offers : List Offer) (decision : Decision) : Prop :=
  decision.admitted.Nodup ∧ ∀ o ∈ offers, ∀ o' ∈ offers, o.itemId = o'.itemId →
    ∀ f, decision.form.get? o.itemId = some f → requestCount f o = requestCount f o'

theorem requestCount_eq {o : Offer} {f : Form} {plan : Plan} (h : o.planFor f = .ok plan) :
    requestCount f o = some plan.requests.length := by
  simp only [requestCount, h]

theorem planFor_of_requestCount {o : Offer} {f : Form} {n : ℕ} (h : requestCount f o = some n) :
    ∃ plan, o.planFor f = .ok plan ∧ plan.requests.length = n := by
  unfold requestCount at h
  split at h
  · rename_i plan hplan
    exact ⟨plan, hplan, Option.some.inj h⟩
  · simp at h

theorem dispatchesOf_ordinals (i : String) (f : Form) (requests : List RequestDescriptor) :
    (dispatchesOf i f requests).map (·.ordinal) = List.range requests.length := by
  apply List.ext_getElem
  · simp [dispatchesOf]
  · intro n h₁ h₂
    simp [dispatchesOf]

theorem mem_dispatchesOf {i : String} {f : Form} {requests : List RequestDescriptor} {x : Dispatch}
    (h : x ∈ dispatchesOf i f requests) : x.itemId = i ∧ x.form = f := by
  simp only [dispatchesOf, List.mem_mapIdx] at h
  obtain ⟨n, hn, rfl⟩ := h
  exact ⟨rfl, rfl⟩

theorem sending_itemId {offered : Dict String Offer} {form : Dict String Form} {i : String} {x : Dispatch}
    (h : x ∈ sending offered form i) : x.itemId = i := by
  unfold sending at h
  split at h
  · split at h
    · exact (mem_dispatchesOf h).1
    · simp at h
  · simp at h

/-- The log of one item is what its id sends, as often as it is admitted. -/
theorem sentFor_flatMap (o : Offer) (offered : Dict String Offer) (form : Dict String Form)
    (admitted : List String) :
    sentFor o (admitted.flatMap (sending offered form)) =
      (List.replicate (admitted.count o.itemId) o.itemId).flatMap (sending offered form) := by
  rw [← List.filter_eq]
  induction admitted with
  | nil => rfl
  | cons i rest ih =>
    have hsplit : sentFor o ((i :: rest).flatMap (sending offered form)) =
        sentFor o (sending offered form i) ++ sentFor o (rest.flatMap (sending offered form)) := by
      simp [sentFor, List.flatMap_cons]
    rw [hsplit, ih]
    by_cases hi : i = o.itemId
    · have hall : sentFor o (sending offered form i) = sending offered form i := by
        apply List.filter_eq_self.mpr
        intro x hx
        simpa using (sending_itemId hx).trans hi
      simp [hi ▸ hall, hi]
    · have hnone : sentFor o (sending offered form i) = [] := by
        apply List.filter_eq_nil_iff.mpr
        intro x hx
        simpa [sending_itemId hx] using hi
      simp [hnone, hi]

theorem sentFor_of_not_admitted {o : Offer} {offered : Dict String Offer} {form : Dict String Form}
    {admitted : List String} (h : o.itemId ∉ admitted) :
    sentFor o (admitted.flatMap (sending offered form)) = [] := by
  rw [sentFor_flatMap, List.count_eq_zero_of_not_mem h]
  rfl

section Landed
variable {h : SimulatedHost} {decision : Decision} {o : Offer} {f : Form} {plan : Plan}

/-- The log of an admitted item, by the plan of the offer its id finds. -/
theorem sentFor_admitted (ho : (byId h.offers).get? o.itemId = some o)
    (hf : decision.form.get? o.itemId = some f) (hplan : o.planFor f = .ok plan) :
    sentFor o (decision.admitted.flatMap (sending (byId h.offers) decision.form)) =
      (List.replicate (decision.admitted.count o.itemId) o.itemId).flatMap
        fun i => dispatchesOf i f plan.requests := by
  rw [sentFor_flatMap]
  apply List.flatMap_congr
  intro i hi
  rw [List.eq_of_mem_replicate hi]
  exact sending_eq ho hf hplan

theorem length_sent (n : ℕ) (i : String) (f : Form) (requests : List RequestDescriptor) :
    ((List.replicate n i).flatMap fun j => dispatchesOf j f requests).length = n * requests.length := by
  induction n with
  | zero => simp
  | succ n ih =>
    rw [List.replicate_succ, List.flatMap_cons, List.length_append, ih, Nat.succ_mul, Nat.add_comm]
    simp [dispatchesOf]

/-- An offer sent once under a form that was sent has the plan that form asks for. -/
theorem SentOnce.requestCount_eq {sent : List Dispatch} (h : SentOnce o sent) {x : Dispatch}
    (hx : x ∈ sentFor o sent) : requestCount x.form o = some (sentFor o sent).length := by
  obtain ⟨f, plan, hplan, hform, hordinals⟩ := h
  rw [hform x hx, Broker.requestCount_eq hplan]
  have hlength := congrArg List.length hordinals
  simp only [List.length_map, List.length_range] at hlength
  rw [hlength]

theorem sentFor_congr {o o' : Offer} (h : o.itemId = o'.itemId) (sent : List Dispatch) :
    sentFor o sent = sentFor o' sent := by
  unfold sentFor
  rw [h]

/-- One landed decision settles every offer exactly when it sends each admitted item once. -/
theorem settled_carriedOut (hd : Dispatchable h.offers decision) :
    Settled h (h.carriedOut decision) ↔ SingleSend h.offers decision := by
  have hleft : ∀ o ∈ h.offers, o ∈ (h.carriedOut decision).offers ↔ o.itemId ∉ decision.admitted := by
    intro o ho
    simp [carriedOut, ho]
  constructor
  · intro ⟨sent, hsent, hall⟩
    have hlog : sent = decision.admitted.flatMap (sending (byId h.offers) decision.form) :=
      (List.append_cancel_left hsent).symm
    have honce : ∀ o ∈ h.offers, o.itemId ∈ decision.admitted → SentOnce o sent := by
      intro o ho hadmitted
      rcases hall o ho with hpending | hgone
      · exact absurd hadmitted ((hleft o ho).mp hpending.1)
      · exact hgone.2
    -- the offer an admitted id finds was sent as often as the id is admitted
    have hcount : ∀ o f plan, (byId h.offers).get? o.itemId = some o → o.itemId ∈ decision.admitted →
        decision.form.get? o.itemId = some f → o.planFor f = .ok plan →
        decision.admitted.count o.itemId = 1 ∧ ∃ x ∈ sentFor o sent, x.form = f := by
      intro o f plan ho hadmitted hf hplan
      have hlist := sentFor_admitted ho hf hplan
      rw [← hlog] at hlist
      have hlength := congrArg List.length hlist
      rw [length_sent] at hlength
      have hpos : 0 < decision.admitted.count o.itemId := List.count_pos_iff.mpr hadmitted
      have hplanPos : 0 < plan.requests.length := List.length_pos_iff.mpr plan.requests_ne_nil
      have hsentPos : 0 < (sentFor o sent).length := by
        rw [hlength]
        exact Nat.mul_pos hpos hplanPos
      obtain ⟨x, hx⟩ := List.exists_mem_of_length_pos hsentPos
      have hxf : x.form = f := by
        have hx' := hx
        rw [hlist] at hx'
        obtain ⟨i, _, hi⟩ := List.mem_flatMap.mp hx'
        exact (mem_dispatchesOf hi).2
      have hplanned := (honce o (byId_get ho).1 hadmitted).requestCount_eq hx
      rw [hxf, Broker.requestCount_eq hplan, hlength] at hplanned
      have hone : 1 * plan.requests.length = decision.admitted.count o.itemId * plan.requests.length := by
        rw [Nat.one_mul]
        exact Option.some.inj hplanned
      exact ⟨(Nat.eq_of_mul_eq_mul_right hplanPos hone).symm, x, hx, hxf⟩
    constructor
    · apply List.nodup_iff_count_eq_one.mpr
      intro i hi
      obtain ⟨o, f, plan, ho, hf, hplan⟩ := hd i hi
      have hid := (byId_get ho).2
      subst hid
      exact (hcount o f plan ho hi hf hplan).1
    · intro o ho o' ho' hid f hf
      have hadmitted : o.itemId ∈ decision.admitted :=
        decision.admittedOnly _ (Dict.mem_keys_iff.mpr ⟨f, hf⟩)
      obtain ⟨last, g, plan, hlast, hg, hplan⟩ := hd o.itemId hadmitted
      have hlastId := (byId_get hlast).2
      rw [← hlastId] at hlast hg hf hadmitted
      have hsame : g = f := Option.some.inj (hg.symm.trans hf)
      subst hsame
      obtain ⟨x, hx, hxf⟩ := (hcount last g plan hlast hadmitted hg hplan).2
      have hxo : x ∈ sentFor o sent := by
        rw [sentFor_congr hlastId.symm]
        exact hx
      have hxo' : x ∈ sentFor o' sent := by
        rw [sentFor_congr (hid.symm.trans hlastId.symm)]
        exact hx
      have hcounted := (honce o ho (hlastId ▸ hadmitted)).requestCount_eq hxo
      have hcounted' := (honce o' ho' (hid ▸ hlastId ▸ hadmitted)).requestCount_eq hxo'
      rw [hxf] at hcounted hcounted'
      rw [hcounted, hcounted', sentFor_congr hid]
  · intro ⟨hnodup, hshared⟩
    refine ⟨_, rfl, ?_⟩
    intro o ho
    by_cases hadmitted : o.itemId ∈ decision.admitted
    · right
      refine ⟨fun hpending => (hleft o ho).mp hpending hadmitted, ?_⟩
      obtain ⟨last, f, plan, hlast, hf, hplan⟩ := hd o.itemId hadmitted
      have hlastOffer := byId_get hlast
      have hcounts := hshared o ho last hlastOffer.1 hlastOffer.2.symm f hf
      rw [Broker.requestCount_eq hplan] at hcounts
      obtain ⟨plan', hplan', hlength⟩ := planFor_of_requestCount hcounts
      have hlist := sentFor_flatMap o (byId h.offers) decision.form decision.admitted
      rw [List.nodup_iff_count_eq_one.mp hnodup _ hadmitted] at hlist
      simp only [List.replicate_one, List.flatMap_cons, List.flatMap_nil, List.append_nil] at hlist
      rw [sending_eq hlast hf hplan] at hlist
      refine ⟨f, plan', hplan', ?_, ?_⟩
      · intro x hx
        rw [hlist] at hx
        exact (mem_dispatchesOf hx).2
      · rw [hlist, hlength]
        exact dispatchesOf_ordinals _ _ _
    · left
      exact ⟨(hleft o ho).mpr hadmitted, sentFor_of_not_admitted hadmitted⟩

end Landed

end Shapeflow.Broker
