import Mathlib.Data.Rat.Lemmas
import Mathlib.Algebra.Order.Ring.Rat
import Shapeflow.BrokerOffer
import Shapeflow.Fallible
import Shapeflow.Intervals
import Shapeflow.SortedLists

set_option autoImplicit false

/-!
# Model-work accounting

The service interval of a request runs from its dispatch to the end of its response.
The isolated mode is checked by neighbours in the order of dispatch, the concurrency
is counted over the sorted boundaries. The check sees intervals without length, the
count does not.
-/
namespace Shapeflow.Accounting
open Intervals
open Broker (OpClass)

/-- Op classes that count as treatment work. -/
def TREATMENT_OPS : List OpClass := [
  .pageP0Summary, .pageP1SelectorLocal, .pageP1SelectorGlobal, .pageP1SelectorBatch,
  .pageP1ShortProse, .researcherReact, .compressorP0, .compressorP1Selector,
  .compressorShortProse, .supervisorContinue, .finalWriter]

structure RequestEvent where
  opClass : OpClass
  upstreamDispatchTs : ℚ
  upstreamResponseEndTs : ℚ
deriving DecidableEq, Repr

def RequestEvent.interval (e : RequestEvent) : ℚ × ℚ := (e.upstreamDispatchTs, e.upstreamResponseEndTs)

def RequestEvent.serviceSeconds (e : RequestEvent) : ℚ := e.upstreamResponseEndTs - e.upstreamDispatchTs

def treatment (events : List RequestEvent) : List RequestEvent :=
  events.filter fun e => e.opClass ∈ TREATMENT_OPS

/-- Two treatment intervals overlapped in isolated mode. -/
structure OverlapError where
  first : ℚ × ℚ
  second : ℚ × ℚ
deriving DecidableEq, Repr

/-- `sorted(..., key=lambda iv: iv[0])` -/
def byStart (intervals : List (ℚ × ℚ)) : List (ℚ × ℚ) := intervals.insertionSort fun a b => a.1 ≤ b.1

/-- The loop over `zip(intervals, intervals[1:])`. -/
def checkNeighbours : List (ℚ × ℚ) → Except OverlapError Unit
  | a :: b :: rest => if b.1 < a.2 then .error ⟨a, b⟩ else checkNeighbours (b :: rest)
  | _ => .ok ()

def assertNonOverlapping (events : List RequestEvent) : Except OverlapError Unit :=
  checkNeighbours (byStart ((treatment events).map RequestEvent.interval))

def isolatedServiceWork (events : List RequestEvent) (verify : Bool) : Except OverlapError ℚ := do
  if verify then assertNonOverlapping events
  pure ((treatment events).map RequestEvent.serviceSeconds).sum

/-- The treatment intervals of positive length. -/
def properIntervals (events : List RequestEvent) : List (ℚ × ℚ) :=
  ((treatment events).filter fun e => e.upstreamDispatchTs < e.upstreamResponseEndTs).map
    RequestEvent.interval

/-- What the merging sweep has summed, and the stretch it is extending. -/
structure Sweep where
  total : ℚ
  current : Option (ℚ × ℚ)

def Sweep.take (s : Sweep) (iv : ℚ × ℚ) : Sweep :=
  match s.current with
  | none => ⟨s.total, some iv⟩
  | some c =>
    if c.2 < iv.1 then ⟨s.total + (c.2 - c.1), some iv⟩
    else ⟨s.total, some (c.1, max c.2 iv.2)⟩

def Sweep.finish (s : Sweep) : ℚ :=
  match s.current with
  | none => s.total
  | some c => s.total + (c.2 - c.1)

def intervalUnionSeconds (events : List RequestEvent) : ℚ :=
  ((byStart (properIntervals events)).foldl Sweep.take ⟨0, none⟩).finish

/-- The peak so far and the level now. -/
structure Level where
  peak : ℤ
  current : ℤ

def Level.add (s : Level) (boundary : ℚ × ℤ) : Level :=
  ⟨max s.peak (s.current + boundary.2), s.current + boundary.2⟩

def maxConcurrentTreatmentRequests (events : List RequestEvent) : ℤ :=
  (((boundaries (properIntervals events)).insertionSort BoundaryLe).foldl Level.add ⟨0, 0⟩).peak

/-! ## The check on neighbours -/

theorem checkNeighbours_ok {l : List (ℚ × ℚ)} : checkNeighbours l = .ok () ↔ l.IsChain Before := by
  induction l with
  | nil => exact ⟨fun _ => List.IsChain.nil, fun _ => rfl⟩
  | cons a l ih =>
    cases l with
    | nil => exact ⟨fun _ => List.IsChain.singleton a, fun _ => rfl⟩
    | cons b l =>
      rw [List.isChain_cons_cons, ← ih, checkNeighbours]
      split
      · rename_i hlt
        exact ⟨nofun, fun h => absurd hlt (not_lt.mpr h.1)⟩
      · rename_i hle
        exact ⟨fun h => ⟨not_lt.mp hle, h⟩, fun h => h.2⟩

theorem sorted_byStart (l : List (ℚ × ℚ)) : (byStart l).Pairwise fun a b => a.1 ≤ b.1 :=
  SortedLists.pairwise_insertionSort_key Prod.fst l

theorem perm_byStart (l : List (ℚ × ℚ)) : (byStart l).Perm l := List.perm_insertionSort _ l

section
variable {events : List RequestEvent}

theorem mem_properIntervals {iv : ℚ × ℚ} :
    iv ∈ properIntervals events ↔ iv.1 < iv.2 ∧ iv ∈ (treatment events).map RequestEvent.interval := by
  rw [properIntervals, List.mem_map, List.mem_map]
  constructor
  · rintro ⟨e, he, rfl⟩
    obtain ⟨he, hlt⟩ := List.mem_filter.mp he
    exact ⟨of_decide_eq_true hlt, e, he, rfl⟩
  · rintro ⟨hlt, e, he, rfl⟩
    exact ⟨e, List.mem_filter.mpr ⟨he, decide_eq_true hlt⟩, rfl⟩

theorem properIntervals_eq (events : List RequestEvent) :
    properIntervals events =
      ((treatment events).map RequestEvent.interval).filter fun iv => iv.1 < iv.2 := by
  rw [List.filter_map]
  rfl

theorem treatment_perm {events' : List RequestEvent} (h : events'.Perm events) :
    (treatment events').Perm (treatment events) := h.filter _

theorem properIntervals_perm {events' : List RequestEvent} (h : events'.Perm events) :
    (properIntervals events').Perm (properIntervals events) := ((treatment_perm h).filter _).map _

/-- No two treatment intervals share a stretch of positive length. -/
def Serialized (events : List RequestEvent) : Prop :=
  ((treatment events).map RequestEvent.interval).Pairwise fun a b => ¬Overlap a b

theorem serialized_iff_proper :
    Serialized events ↔ (properIntervals events).Pairwise fun a b => ¬Overlap a b := by
  rw [properIntervals_eq, List.pairwise_filter, Serialized]
  refine ⟨fun h => h.imp fun hno _ _ => hno, fun h => h.imp fun hno ho => ?_⟩
  have hab := overlap_iff.mp ho
  exact hno (decide_eq_true hab.1) (decide_eq_true hab.2.2.2) ho

theorem serialized_perm {events' : List RequestEvent} (h : events'.Perm events) :
    Serialized events' ↔ Serialized events :=
  ((treatment_perm h).map _).pairwise_iff not_overlap_symm

/-- A treatment interval without length lies where another one is being served. -/
def PointInside (events : List RequestEvent) : Prop :=
  ∃ a ∈ (treatment events).map RequestEvent.interval, ∃ p ∈ (treatment events).map RequestEvent.interval,
    p.1 = p.2 ∧ a.1 ≤ p.1 ∧ p.1 < a.2

theorem pointInside_perm {events' : List RequestEvent} (h : events'.Perm events) :
    PointInside events' ↔ PointInside events := by
  simp only [PointInside, ((treatment_perm h).map RequestEvent.interval).mem_iff]

/-- In the order of starts, what passes the check follows one another. -/
theorem pairwise_before_of_check (hforward : ∀ e ∈ events, e.upstreamDispatchTs ≤ e.upstreamResponseEndTs)
    (h : assertNonOverlapping events = .ok ()) :
    (byStart ((treatment events).map RequestEvent.interval)).Pairwise Before := by
  refine pairwise_before_of_isChain (fun a ha => ?_) (checkNeighbours_ok.mp h)
  obtain ⟨e, he, rfl⟩ := List.mem_map.mp ((perm_byStart _).mem_iff.mp ha)
  exact hforward e (List.mem_of_mem_filter he)

/-- What passes the check is served one after the other. -/
theorem serialized_of_check (hforward : ∀ e ∈ events, e.upstreamDispatchTs ≤ e.upstreamResponseEndTs)
    (h : assertNonOverlapping events = .ok ()) : Serialized events :=
  ((perm_byStart _).pairwise_iff not_overlap_symm).mp
    ((pairwise_before_of_check hforward h).imp Before.not_overlap)

/-- A serialized list fails the check only for a point inside an interval. -/
theorem check_of_serialized (hforward : ∀ e ∈ events, e.upstreamDispatchTs ≤ e.upstreamResponseEndTs)
    (h : Serialized events) (hpoint : ¬PointInside events) : assertNonOverlapping events = .ok () := by
  refine checkNeighbours_ok.mpr (List.Pairwise.isChain ?_)
  have hnot := ((perm_byStart _).pairwise_iff not_overlap_symm).mpr h
  refine ((sorted_byStart _).and hnot).imp_of_mem ?_
  rintro a b ha hb ⟨hle, hno⟩
  have ha := (perm_byStart _).mem_iff.mp ha
  have hb := (perm_byStart _).mem_iff.mp hb
  by_contra hlt
  have hlt : b.1 < a.2 := not_le.mp hlt
  obtain ⟨e, he, hbe⟩ := List.mem_map.mp hb
  have hb12 : b.1 ≤ b.2 := hbe ▸ hforward e (List.mem_of_mem_filter he)
  rcases hb12.eq_or_lt with heq | hpos
  · exact hpoint ⟨a, ha, b, hb, heq, hle, hlt⟩
  · exact hno (overlap_iff.mpr ⟨hle.trans_lt hlt, hle.trans_lt hpos, hlt, hpos⟩)

/-- With the longer interval listed first, a point inside it fails the check. -/
theorem exists_perm_failing (hforward : ∀ e ∈ events, e.upstreamDispatchTs ≤ e.upstreamResponseEndTs)
    (hpoint : PointInside events) :
    ∃ events', events'.Perm events ∧ assertNonOverlapping events' ≠ .ok () := by
  obtain ⟨a, ha, p, hp, heq, hle, hlt⟩ := hpoint
  obtain ⟨e, he, rfl⟩ := List.mem_map.mp ha
  have hmem : e ∈ events := List.mem_of_mem_filter he
  have hkept : decide (e.opClass ∈ TREATMENT_OPS) = true := (List.mem_filter.mp he).2
  have hperm : (e :: events.erase e).Perm events := (List.perm_cons_erase hmem).symm
  refine ⟨e :: events.erase e, hperm, fun hok => ?_⟩
  have hfirst : (treatment (e :: events.erase e)).map RequestEvent.interval =
      e.interval :: (treatment (events.erase e)).map RequestEvent.interval := by
    rw [treatment, List.filter_cons, if_pos hkept, List.map_cons]
    rfl
  have hrest : p ∈ (treatment (events.erase e)).map RequestEvent.interval := by
    have hp := ((treatment_perm hperm).map RequestEvent.interval).mem_iff.mpr hp
    rw [hfirst] at hp
    rcases List.mem_cons.mp hp with rfl | hp
    · exact absurd heq hlt.ne
    · exact hp
  have hpair : [e.interval, p].Sublist
      (byStart ((treatment (e :: events.erase e)).map RequestEvent.interval)) := by
    letI : IsTrans (ℚ × ℚ) fun a b => a.1 ≤ b.1 := ⟨fun _ _ _ h h' => le_trans h h'⟩
    letI : Std.Total fun a b : ℚ × ℚ => a.1 ≤ b.1 := ⟨fun a b => le_total a.1 b.1⟩
    refine List.pair_sublist_insertionSort hle ?_
    rw [hfirst]
    exact List.Sublist.cons_cons _ (List.singleton_sublist.mpr hrest)
  -- sorting by start keeps the listed order, so the point comes after the interval it lies in
  have hbefore := pairwise_before_of_check (fun e' he' => hforward e' (hperm.mem_iff.mp he')) hok
  exact absurd (List.pairwise_pair.mp (hbefore.sublist hpair)) hlt.not_ge

/-! ## The count over the boundaries -/

theorem peak_le_foldl (bs : List (ℚ × ℤ)) (s : Level) : s.peak ≤ (bs.foldl Level.add s).peak := by
  induction bs generalizing s with
  | nil => exact le_refl _
  | cons b bs ih => exact (le_max_left _ _).trans (ih (s.add b))

/-- The peak is at least every level reached. -/
theorem level_le_peak (bs : List (ℚ × ℤ)) (s : Level) (hs : s.current ≤ s.peak)
    {before : List (ℚ × ℤ)} (h : before <+: bs) :
    s.current + (before.map Prod.snd).sum ≤ (bs.foldl Level.add s).peak := by
  induction bs generalizing s before with
  | nil =>
    rw [List.prefix_nil.mp h]
    simpa using hs
  | cons b bs ih =>
    have hstep : (s.add b).current ≤ (s.add b).peak := le_max_right _ _
    cases before with
    | nil =>
      rw [List.map_nil, List.sum_nil, add_zero, List.foldl_cons]
      exact (hs.trans (le_max_left _ _)).trans (peak_le_foldl bs (s.add b))
    | cons c before =>
      obtain ⟨rfl, hpre⟩ := List.cons_prefix_cons.mp h
      have hrun := ih (s.add c) hstep hpre
      rw [List.map_cons, List.sum_cons, ← add_assoc]
      exact hrun

/-- The peak is one of the levels reached. -/
theorem peak_eq_level (bs : List (ℚ × ℤ)) (s : Level) :
    (bs.foldl Level.add s).peak = s.peak ∨
      ∃ before, before <+: bs ∧ (bs.foldl Level.add s).peak = s.current + (before.map Prod.snd).sum := by
  induction bs generalizing s with
  | nil => exact Or.inl rfl
  | cons b bs ih =>
    rcases ih (s.add b) with h | ⟨before, hpre, h⟩
    · rcases max_choice s.peak (s.current + b.2) with hmax | hmax
      · exact Or.inl (h.trans hmax)
      · refine Or.inr ⟨[b], List.prefix_cons_inj b |>.mpr List.nil_prefix, ?_⟩
        rw [List.map_singleton, List.sum_singleton]
        exact h.trans hmax
    · refine Or.inr ⟨b :: before, List.prefix_cons_inj b |>.mpr hpre, ?_⟩
      rw [List.map_cons, List.sum_cons, ← add_assoc]
      exact h

theorem sorted_boundaries (bs : List (ℚ × ℤ)) : (bs.insertionSort BoundaryLe).Pairwise BoundaryLe :=
  List.pairwise_insertionSort _ bs

theorem levelAt_sorted (t : ℚ) : levelAt t ((boundaries (properIntervals events)).insertionSort BoundaryLe) =
    openAt t (properIntervals events) := by
  rw [levelAt_perm t (List.perm_insertionSort _ _), levelAt_boundaries]
  exact fun a ha => (mem_properIntervals.mp ha).1.le

/-- As many as are open at any instant are counted. -/
theorem openAt_le_maxConcurrent (t : ℚ) :
    (openAt t (properIntervals events) : ℤ) ≤ maxConcurrentTreatmentRequests events := by
  obtain ⟨before, hpre, hsum⟩ := exists_run_levelAt (sorted_boundaries (boundaries (properIntervals events))) t
  rw [← levelAt_sorted, ← hsum, ← zero_add (List.sum _)]
  exact level_le_peak _ ⟨0, 0⟩ (le_refl 0) hpre

/-- A first run of sorted boundaries adds up to no more than what is open at some instant. -/
theorem run_le_openAt {bs : List (ℚ × ℤ)} (hperm : bs.Perm (boundaries (properIntervals events)))
    (hsorted : bs.Pairwise BoundaryLe) (before : List (ℚ × ℤ)) (h : before <+: bs) :
    (before.map Prod.snd).sum ≤ 0 ∨ ∃ t, (before.map Prod.snd).sum ≤ openAt t (properIntervals events) := by
  induction before using List.reverseRecOn with
  | nil => exact Or.inl (le_refl 0)
  | append_singleton before b ih =>
    obtain ⟨after, rfl⟩ := h
    have hb : b ∈ boundaries (properIntervals events) := hperm.mem_iff.mp (by simp)
    obtain ⟨a, -, hb⟩ := List.mem_flatMap.mp hb
    have hdelta : b.2 = 1 ∨ b.2 = -1 := by
      rcases List.mem_cons.mp hb with rfl | hb
      · exact Or.inl rfl
      · rw [List.mem_singleton.mp hb]
        exact Or.inr rfl
    rcases hdelta with hone | hneg
    · refine Or.inr ⟨b.1, ?_⟩
      have hopen := levelAt_perm b.1 hperm
      rw [levelAt_boundaries b.1 fun a ha => (mem_properIntervals.mp ha).1.le] at hopen
      rw [← hopen]
      obtain ⟨hbefore, -, hcross⟩ := List.pairwise_append.mp hsorted
      refine sum_le_levelAt (fun c hc => ?_) fun c hc hle => ?_
      · rcases List.mem_append.mp hc with hc | hc
        · exact ((List.pairwise_append.mp hbefore).2.2 c hc b (by simp)).fst_le
        · rw [List.mem_singleton.mp hc]
      · rcases hcross b (by simp) c hc with hlt | ⟨-, hle2⟩
        · exact absurd hle hlt.not_ge
        · omega
    · have hsum : ((before ++ [b]).map Prod.snd).sum = (before.map Prod.snd).sum - 1 := by
        rw [List.map_append, List.sum_append, List.map_singleton, List.sum_singleton, hneg]
        rfl
      rw [hsum]
      rcases ih ⟨[b] ++ after, (List.append_assoc _ _ _).symm⟩ with hle | ⟨t, hle⟩
      · exact Or.inl (by omega)
      · exact Or.inr ⟨t, by omega⟩

/-- The count is what is open at some instant, and nothing more. -/
theorem maxConcurrent_le_openAt : maxConcurrentTreatmentRequests events ≤ 0 ∨
    ∃ t, maxConcurrentTreatmentRequests events ≤ openAt t (properIntervals events) := by
  rcases peak_eq_level ((boundaries (properIntervals events)).insertionSort BoundaryLe) ⟨0, 0⟩ with
    h | ⟨before, hpre, h⟩
  · exact Or.inl (le_of_eq h)
  · rw [zero_add] at h
    rw [maxConcurrentTreatmentRequests, h]
    exact run_le_openAt (List.perm_insertionSort _ _) (sorted_boundaries _) before hpre

/-- More than one request is counted exactly when two treatment intervals overlap. -/
theorem one_lt_maxConcurrent_iff : 1 < maxConcurrentTreatmentRequests events ↔ ¬Serialized events := by
  rw [serialized_iff_proper, ← one_lt_openAt_iff]
  constructor
  · intro h
    rcases @maxConcurrent_le_openAt events with hle | ⟨t, hle⟩
    · omega
    · exact ⟨t, by omega⟩
  · rintro ⟨t, ht⟩
    have := @openAt_le_maxConcurrent events t
    omega

/-- The count does not see the order of the events. -/
theorem maxConcurrent_perm {events' : List RequestEvent} (h : events'.Perm events) :
    maxConcurrentTreatmentRequests events' = maxConcurrentTreatmentRequests events := by
  have hperm : (boundaries (properIntervals events')).Perm (boundaries (properIntervals events)) :=
    (properIntervals_perm h).flatMap_right _
  have hsorted : (boundaries (properIntervals events')).insertionSort BoundaryLe =
      (boundaries (properIntervals events)).insertionSort BoundaryLe :=
    SortedLists.insertionSort_eq_of_perm _ hperm
  rw [maxConcurrentTreatmentRequests, maxConcurrentTreatmentRequests, hsorted]

/-- The verdict and the count agree on every arrangement of a list exactly when two of its
treatment intervals overlap, or none of them without length lies where another is served. -/
theorem overlapVerdict_agrees_iff (events : List RequestEvent)
    (hforward : ∀ e ∈ events, e.upstreamDispatchTs ≤ e.upstreamResponseEndTs) :
    (∀ events', events'.Perm events →
      (assertNonOverlapping events' ≠ .ok () ↔ 1 < maxConcurrentTreatmentRequests events') ∧
      (assertNonOverlapping events' ≠ .ok () ↔ assertNonOverlapping events ≠ .ok ()) ∧
      maxConcurrentTreatmentRequests events' = maxConcurrentTreatmentRequests events) ↔
    ¬Serialized events ∨ ¬PointInside events := by
  constructor
  · intro hagree
    by_contra hnot
    push Not at hnot
    obtain ⟨hserial, hpoint⟩ := hnot
    obtain ⟨events', hperm, hfail⟩ := exists_perm_failing hforward hpoint
    have hcount := (hagree events' hperm).1.mp hfail
    exact one_lt_maxConcurrent_iff.mp hcount ((serialized_perm hperm).mpr hserial)
  · intro hcond
    have hverdict : ∀ events', events'.Perm events →
        (assertNonOverlapping events' ≠ .ok () ↔ ¬Serialized events) := by
      intro events' hperm
      have hforward' : ∀ e ∈ events', e.upstreamDispatchTs ≤ e.upstreamResponseEndTs :=
        fun e he => hforward e (hperm.mem_iff.mp he)
      constructor
      · rintro hfail hserial
        refine hfail (check_of_serialized hforward' ((serialized_perm hperm).mpr hserial) ?_)
        rw [pointInside_perm hperm]
        exact hcond.resolve_left (not_not.mpr hserial)
      · exact fun hnot hok => hnot ((serialized_perm hperm).mp (serialized_of_check hforward' hok))
    intro events' hperm
    refine ⟨?_, ?_, maxConcurrent_perm hperm⟩
    · rw [hverdict events' hperm, one_lt_maxConcurrent_iff, serialized_perm hperm]
    · rw [hverdict events' hperm, hverdict events (List.Perm.refl _)]

end

/-- A served interval with a point of another request inside it. -/
def withPoint : List RequestEvent := [⟨.pageP0Summary, 0, 5⟩, ⟨.researcherReact, 2, 2⟩]

theorem overlapVerdict_agrees_iff_withPoint :
    ¬(∀ events', events'.Perm withPoint →
      (assertNonOverlapping events' ≠ .ok () ↔ 1 < maxConcurrentTreatmentRequests events') ∧
      (assertNonOverlapping events' ≠ .ok () ↔ assertNonOverlapping withPoint ≠ .ok ()) ∧
      maxConcurrentTreatmentRequests events' = maxConcurrentTreatmentRequests withPoint) := by
  rw [overlapVerdict_agrees_iff withPoint (by decide)]
  rintro (h | h)
  · exact h (serialized_iff_proper.mpr (List.pairwise_singleton _ _))
  · exact h ⟨(0, 5), by decide, (2, 2), by decide, rfl, by decide, by decide⟩

/-- The check raises on it though no two requests run at once. -/
theorem not_overlapVerdict_agrees :
    ¬∀ events : List RequestEvent, (∀ e ∈ events, e.upstreamDispatchTs ≤ e.upstreamResponseEndTs) →
      (assertNonOverlapping events ≠ .ok () ↔ 1 < maxConcurrentTreatmentRequests events) := by
  intro h
  have hcount : maxConcurrentTreatmentRequests withPoint = 1 := by decide
  have := (h withPoint (by decide)).mp (by decide)
  omega

end Shapeflow.Accounting
