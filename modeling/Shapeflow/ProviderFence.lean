import Shapeflow.ProviderServer
import Shapeflow.Run

set_option autoImplicit false

/-!
# The fence of a provider across requests and restarts

Requests run as threads: each goes through the limbs of the breaker, is
dispatched, and notes how its reply came out, with every other thread's steps
in between. A restart loses the threads and the counts and keeps the ledger.
-/
namespace Shapeflow.ProviderServer
open Script Database Run

/-- How far a request has come. -/
inductive Stage
  | arrived
  | counted
  | checked
  | admitted
  | sent
  | failed (status count : ℕ)
  | finished
deriving DecidableEq, Repr

structure Request where
  number : ℕ
  provider : Provider
  stage : Stage
deriving DecidableEq, Repr

/-- The server: its ledger, what its process remembers, and what it has sent so far. -/
structure World where
  store : Database := .empty
  consecutiveFailures : Provider → ℕ := fun _ => 0
  requests : List Request := []
  arrivals : ℕ := 0
  dispatched : List Request := []

/-- An incident that is none of the breaker's. -/
structure OtherIncident where
  clock : ℚ
  severity : String
  kind : String
  detail : String
  workKey : Option String
  other : kind ∉ breakerIncidents

inductive Event
  | arrive (p : Provider)
  | check (n : ℕ)
  | dispatch (n : ℕ)
  | reply (n status : ℕ)
  | note (n : ℕ) (clock : ℚ)
  | leave (n : ℕ)
  | probe (p : Provider) (status : ℕ) (clock : ℚ)
  | incident (i : OtherIncident)
  | restart

def World.request (w : World) (n : ℕ) : Option Request := w.requests.find? fun r => r.number = n

def World.moved (w : World) (n : ℕ) (stage : Stage) : World :=
  { w with requests := w.requests.map fun r => if r.number = n then { r with stage := stage } else r }

def World.counting (w : World) (p : Provider) (count : ℕ) : World :=
  { w with consecutiveFailures := fun q => if q = p then count else w.consecutiveFailures q }

def World.recording {α : Type} (w : World) (write : Db α) : World := { w with store := write.after w.store }

/-- The next limb of the breaker for a request that has not passed them all. -/
def limbRefusal (limit : ℤ) (w : World) (r : Request) : Option ProviderError :=
  match r.stage with
  | .arrived => countRefusal limit r.provider (w.consecutiveFailures r.provider)
  | .counted => incidentRefusal w.store r.provider "provider_unauthorized"
  | .checked => incidentRefusal w.store r.provider "provider_consecutive_failures"
  | _ => none

def nextLimb : Stage → Stage
  | .arrived => .counted
  | .counted => .checked
  | .checked => .admitted
  | stage => stage

/-- The rejection an event puts on record, if it does. -/
def rejection (w : World) : Event → Option Provider
  | .note n _ =>
    match w.request n with
    | some ⟨_, p, .failed status _⟩ => if status ∈ unauthorized then some p else none
    | _ => none
  | .probe p status _ => if status ∈ unauthorized then some p else none
  | _ => none

def step (limit : ℤ) (w : World) : Event → World
  | .arrive p =>
    { w with requests := w.requests ++ [⟨w.arrivals, p, .arrived⟩], arrivals := w.arrivals + 1 }
  | .check n =>
    match w.request n with
    | none => w
    | some r => w.moved n (if (limbRefusal limit w r).isSome then .finished else nextLimb r.stage)
  | .dispatch n =>
    match w.request n with
    | some r =>
      if r.stage = .admitted then { w.moved n .sent with dispatched := w.dispatched ++ [r] } else w
    | none => w
  | .reply n status =>
    match w.request n with
    | some ⟨_, p, .sent⟩ =>
      if status = 200 then (w.moved n .finished).counting p 0
      else (w.moved n (.failed status (w.consecutiveFailures p + 1))).counting p (w.consecutiveFailures p + 1)
    | _ => w
  | .note n clock =>
    match w.request n with
    | some ⟨_, p, .failed status count⟩ =>
      (w.moved n .finished).recording (noteUpstreamFailure limit clock p status count)
    | _ => w
  | .leave n => w.moved n .finished
  | .probe p status clock =>
    if status ∈ unauthorized then
      w.recording (WorkLedger.recordIncident clock "FATAL" "provider_unauthorized"
        (rejectionDetail p status ++ " during probe"))
    else w
  | .incident i => w.recording (WorkLedger.recordIncident i.clock i.severity i.kind i.detail i.workKey)
  | .restart => { w with consecutiveFailures := fun _ => 0, requests := [] }

/-- A rejection of the provider's credential is on record. -/
def Rejected (p : Provider) (w : World) : Prop :=
  ∃ i ∈ w.store.incidents.rows, i.severity = "FATAL" ∧ i.kind = "provider_unauthorized" ∧ Names p i.detail

/-- No other provider's rejection is recorded over the provider's own. -/
def Unmasked (p : Provider) (w : World) (e : Event) : Prop :=
  Rejected p w → ∀ q, rejection w e = some q → q = p

/-- The latest refusal of a credential is the provider's. -/
def Foremost (p : Provider) (w : World) : Prop :=
  ∃ i, latestIncident w.store "FATAL" "provider_unauthorized" = some i ∧ Names p i.detail

instance (p : Provider) (w : World) : Decidable (Rejected p w) := inferInstanceAs (Decidable (∃ _ ∈ _, _))

instance (p : Provider) (w : World) (e : Event) : Decidable (Unmasked p w e) :=
  decidable_of_iff (Rejected p w → ∀ q ∈ (rejection w e).toList, q = p)
    (forall_congr' fun _ => by simp)

/-- The fence stands: its incident is the latest, and no request from `n` on has passed it. -/
structure Fenced (p : Provider) (n : ℕ) (w : World) : Prop where
  latest : Foremost p w
  arrivals : n ≤ w.arrivals
  held : ∀ r ∈ w.requests, r.provider = p → n ≤ r.number → r.stage ∈ [.arrived, .counted, .finished]
  none : ∀ r ∈ w.dispatched, r.provider = p → r.number < n

/-! ## Invariants of every run -/

theorem request_mem {w : World} {n : ℕ} {r : Request} (h : w.request n = some r) :
    r ∈ w.requests ∧ r.number = n := by
  unfold World.request at h
  exact ⟨List.mem_of_find?_eq_some h, by simpa using List.find?_some h⟩

theorem moved_mem {w : World} {n : ℕ} {stage : Stage} {q : Request} (h : q ∈ (w.moved n stage).requests) :
    ∃ r ∈ w.requests, q.number = r.number ∧ q.provider = r.provider ∧
      q.stage = if r.number = n then stage else r.stage := by
  obtain ⟨r, hr, rfl⟩ := List.mem_map.mp h
  refine ⟨r, hr, ?_⟩
  split
  · exact ⟨rfl, rfl, rfl⟩
  · exact ⟨rfl, rfl, rfl⟩

/-- Requests are told apart by their numbers, all of them given out. -/
structure Numbered (w : World) : Prop where
  distinct : (w.requests.map (·.number)).Nodup
  given : ∀ r ∈ w.requests, r.number < w.arrivals
  sent : ∀ r ∈ w.dispatched, r.number < w.arrivals

theorem numbered_init : Numbered {} where
  distinct := List.nodup_nil
  given := by intro r hr; cases hr
  sent := by intro r hr; cases hr

theorem Numbered.moved {w : World} (h : Numbered w) (n : ℕ) (stage : Stage) : Numbered (w.moved n stage) where
  distinct := by
    have hmap : (w.moved n stage).requests.map (·.number) = w.requests.map (·.number) := by
      unfold World.moved
      rw [List.map_map]
      apply List.map_congr_left
      intro r _
      simp only [Function.comp_apply]
      split <;> rfl
    rw [hmap]
    exact h.distinct
  given := by
    intro q hq
    obtain ⟨r, hr, hnum, -⟩ := moved_mem hq
    exact hnum ▸ h.given r hr
  sent := h.sent

theorem Numbered.step {w : World} (limit : ℤ) (h : Numbered w) (e : Event) : Numbered (step limit w e) := by
  cases e with
  | arrive p =>
    refine ⟨?_, ?_, fun r hr => Nat.lt_succ_of_lt (h.sent r hr)⟩
    · change ((w.requests ++ [(⟨w.arrivals, p, .arrived⟩ : Request)]).map (·.number)).Nodup
      rw [List.map_append, List.map_singleton, List.nodup_append]
      refine ⟨h.distinct, List.nodup_singleton _, ?_⟩
      intro a ha b hb
      obtain ⟨r, hr, rfl⟩ := List.mem_map.mp ha
      cases List.mem_singleton.mp hb
      exact (h.given r hr).ne
    · intro r hr
      rcases List.mem_append.mp hr with hr | hr
      · exact Nat.lt_succ_of_lt (h.given r hr)
      · cases List.mem_singleton.mp hr
        exact Nat.lt_succ_self _
  | check n =>
    simp only [ProviderServer.step]
    split
    · exact h
    · exact h.moved _ _
  | dispatch n =>
    simp only [ProviderServer.step]
    split
    · rename_i r hr
      split
      · refine ⟨(h.moved n .sent).distinct, (h.moved n .sent).given, ?_⟩
        intro q hq
        rcases List.mem_append.mp hq with hq | hq
        · exact h.sent q hq
        · cases List.mem_singleton.mp hq
          exact h.given r (request_mem hr).1
      · exact h
    · exact h
  | reply n status =>
    simp only [ProviderServer.step]
    split
    · split
      · exact ⟨(h.moved n _).distinct, (h.moved n _).given, h.sent⟩
      · exact ⟨(h.moved n _).distinct, (h.moved n _).given, h.sent⟩
    · exact h
  | note n clock =>
    simp only [ProviderServer.step]
    split
    · exact ⟨(h.moved n _).distinct, (h.moved n _).given, h.sent⟩
    · exact h
  | leave n => exact h.moved n .finished
  | probe p status clock =>
    simp only [ProviderServer.step]
    split
    · exact ⟨h.distinct, h.given, h.sent⟩
    · exact h
  | incident i => exact ⟨h.distinct, h.given, h.sent⟩
  | restart => exact ⟨List.nodup_nil, fun r hr => absurd hr List.not_mem_nil, h.sent⟩

/-! ## The fence over one step -/

/-- An incident of another kind goes on record. -/
theorem recorded_other {s : Database} {now : ℚ} {severity kind detail : String} {key : Option String}
    (h : kind ≠ "provider_unauthorized") :
    latestIncident (recorded s now severity kind detail key) "FATAL" "provider_unauthorized" =
        latestIncident s "FATAL" "provider_unauthorized" ∧
      ∀ i ∈ (recorded s now severity kind detail key).incidents.rows, i.kind = "provider_unauthorized" →
        i ∈ s.incidents.rows := by
  constructor
  · unfold recorded
    rw [latestIncident_append, if_neg fun hrow => h hrow.2]
  · intro i hi hk
    rcases List.mem_append.mp hi with hi | hi
    · exact hi
    · cases List.mem_singleton.mp hi
      exact absurd hk h

/-- What an event leaves of the incidents of refused credentials: the ones there were, or one more. -/
theorem step_rejections (limit : ℤ) (w : World) (e : Event) :
    (latestIncident (step limit w e).store "FATAL" "provider_unauthorized" =
        latestIncident w.store "FATAL" "provider_unauthorized" ∧
      ∀ i ∈ (step limit w e).store.incidents.rows, i.kind = "provider_unauthorized" →
        i ∈ w.store.incidents.rows) ∨
    ∃ q now detail, rejection w e = some q ∧ Names q detail ∧
      (step limit w e).store = recorded w.store now "FATAL" "provider_unauthorized" detail none := by
  have hsame : (step limit w e).store = w.store →
      latestIncident (step limit w e).store "FATAL" "provider_unauthorized" =
        latestIncident w.store "FATAL" "provider_unauthorized" ∧
      ∀ i ∈ (step limit w e).store.incidents.rows, i.kind = "provider_unauthorized" →
        i ∈ w.store.incidents.rows := by
    intro h
    rw [h]
    exact ⟨rfl, fun i hi _ => hi⟩
  cases e with
  | note m clock =>
    cases hr : w.request m with
    | none => exact .inl (hsame (by simp only [step, hr]))
    | some r =>
      obtain ⟨k, q, stage⟩ := r
      cases stage with
      | failed status count =>
        have hstore : (step limit w (.note m clock)).store =
            (noteUpstreamFailure limit clock q status count).after w.store := by
          simp only [step, hr]
          rfl
        rw [noteUpstreamFailure_after] at hstore
        by_cases hst : status ∈ unauthorized
        · rw [if_pos hst] at hstore
          refine .inr ⟨q, clock, _, ?_, ?_, hstore⟩
          · simp only [rejection, hr, if_pos hst]
          · simpa using names_rejection q status ""
        · rw [if_neg hst] at hstore
          split at hstore
          · rw [hstore]
            exact .inl (recorded_other (by decide))
          · exact .inl (hsame hstore)
      | _ => exact .inl (hsame (by simp only [step, hr]))
  | probe q status clock =>
    by_cases hst : status ∈ unauthorized
    · refine .inr ⟨q, clock, _, ?_, names_rejection q status " during probe", ?_⟩
      · simp only [rejection, if_pos hst]
      · simp only [step, if_pos hst, World.recording, recordIncident_after]
    · exact .inl (hsame (by simp only [step, if_neg hst]))
  | incident i =>
    left
    simp only [step, World.recording, recordIncident_after]
    refine recorded_other fun hk => i.other ?_
    simp [breakerIncidents, hk]
  | arrive p => exact .inl (hsame rfl)
  | check m =>
    refine .inl (hsame ?_)
    simp only [step]
    split <;> rfl
  | dispatch m =>
    refine .inl (hsame ?_)
    simp only [step]
    split
    · split <;> rfl
    · rfl
  | reply m status =>
    refine .inl (hsame ?_)
    simp only [step]
    split
    · split <;> rfl
    · rfl
  | leave m => exact .inl (hsame rfl)
  | restart => exact .inl (hsame rfl)

theorem Foremost.rejected {p : Provider} {w : World} (h : Foremost p w) : Rejected p w := by
  obtain ⟨i, hi, hnames⟩ := h
  obtain ⟨hmem, hkind⟩ := List.mem_filter.mp (List.mem_of_getLast? hi)
  exact ⟨i, hmem, (of_decide_eq_true hkind).1, (of_decide_eq_true hkind).2, hnames⟩

theorem foremost_step {p : Provider} {w : World} (limit : ℤ) (e : Event) (h : Rejected p w → Foremost p w)
    (hmask : Unmasked p w e) : Rejected p (step limit w e) → Foremost p (step limit w e) := by
  rintro ⟨i, hi, hsev, hkind, hnames⟩
  rcases step_rejections limit w e with ⟨hlatest, hold⟩ | ⟨q, now, detail, hq, hqnames, hstore⟩
  · unfold Foremost
    rw [hlatest]
    exact h ⟨i, hold i hi hkind, hsev, hkind, hnames⟩
  · unfold Foremost
    rw [hstore] at hi ⊢
    refine ⟨⟨now, "FATAL", "provider_unauthorized", detail, none⟩, ?_, ?_⟩
    · unfold recorded
      rw [latestIncident_append, if_pos ⟨rfl, rfl⟩]
    · rcases List.mem_append.mp hi with hi | hi
      · rw [← hmask ⟨i, hi, hsev, hkind, hnames⟩ q hq]
        exact hqnames
      · cases List.mem_singleton.mp hi
        exact hnames

/-- A request that may not pass, moved to where it may be. -/
theorem Fenced.moved {p : Provider} {n : ℕ} {w : World} (h : Fenced p n w) {m : ℕ} {stage : Stage}
    (hstage : ∀ r ∈ w.requests, r.number = m → r.provider = p → n ≤ r.number →
      stage ∈ [.arrived, .counted, .finished]) : Fenced p n (w.moved m stage) where
  latest := h.latest
  arrivals := h.arrivals
  held := by
    intro q hq hp hn
    obtain ⟨r, hr, hnum, hprov, hst⟩ := moved_mem hq
    rw [hst]
    split
    · rename_i hrm
      exact hstage r hr hrm (hprov ▸ hp) (hnum ▸ hn)
    · exact h.held r hr (hprov ▸ hp) (hnum ▸ hn)
  none := h.none

/-- A limb passed, or the request turned away: the fenced provider's stop at the second. -/
theorem Fenced.check {p : Provider} {n : ℕ} {w : World} (limit : ℤ) (h : Fenced p n w) {r : Request}
    (hr : r ∈ w.requests) (hp : r.provider = p) (hn : n ≤ r.number) :
    (if (limbRefusal limit w r).isSome then .finished else nextLimb r.stage) ∈
      [Stage.arrived, .counted, .finished] := by
  have hheld := h.held r hr hp hn
  obtain ⟨i, hi, hnames⟩ := h.latest
  split
  · simp
  · rename_i hpass
    cases hst : r.stage with
    | arrived => simp [nextLimb]
    | counted =>
      have hsome : (limbRefusal limit w r).isSome = true := by
        simp [limbRefusal, hst, incidentRefusal, hp, hi, hnames]
      exact absurd hsome hpass
    | finished => simp [nextLimb]
    | _ => simp [hst] at hheld

theorem Fenced.step {p : Provider} {n : ℕ} {w : World} (limit : ℤ) (hw : Numbered w) (h : Fenced p n w)
    (e : Event) (hmask : Unmasked p w e) : Fenced p n (step limit w e) := by
  have hlatest : Foremost p (ProviderServer.step limit w e) := by
    refine foremost_step limit e (fun _ => h.latest) hmask ?_
    obtain ⟨i, hi, hsev, hkind, hnames⟩ := h.latest.rejected
    rcases step_rejections limit w e with ⟨hsame, -⟩ | ⟨q, now, detail, -, -, hstore⟩
    · refine Foremost.rejected ?_
      unfold Foremost
      rw [hsame]
      exact h.latest
    · refine ⟨i, ?_, hsev, hkind, hnames⟩
      rw [hstore]
      exact List.mem_append_left _ hi
  have hfound : ∀ {m : ℕ} {r q : Request}, w.request m = some r → q ∈ w.requests → q.number = m → q = r := by
    intro m r q hr hqmem hqm
    obtain ⟨hrmem, hrm⟩ := request_mem hr
    exact Table.eq_of_key hw.distinct hqmem hrmem (hqm.trans hrm.symm)
  have hover : ∀ m, Fenced p n (w.moved m .finished) := fun m => h.moved fun _ _ _ _ _ => by simp
  cases e with
  | arrive q =>
    refine ⟨hlatest, Nat.le_succ_of_le h.arrivals, ?_, h.none⟩
    intro r hr hp hn
    rcases List.mem_append.mp hr with hr | hr
    · exact h.held r hr hp hn
    · cases List.mem_singleton.mp hr
      simp
  | check m =>
    simp only [ProviderServer.step]
    split
    · exact h
    · rename_i r hr
      refine h.moved fun q hqmem hqm hp hn => ?_
      cases hfound hr hqmem hqm
      exact h.check limit hqmem hp hn
  | dispatch m =>
    simp only [ProviderServer.step]
    split
    · rename_i r hr
      split
      · rename_i hadm
        have hearly : r.provider = p → r.number < n := by
          intro hp
          by_contra hlt
          have hheld := h.held r (request_mem hr).1 hp (not_lt.mp hlt)
          simp [hadm] at hheld
        have hmoved : Fenced p n (w.moved m .sent) := by
          refine h.moved fun q hqmem hqm hp hn => ?_
          cases hfound hr hqmem hqm
          exact absurd (hearly hp) (not_lt.mpr hn)
        refine ⟨hmoved.latest, hmoved.arrivals, hmoved.held, ?_⟩
        intro q hqmem hp
        rcases List.mem_append.mp hqmem with hqmem | hqmem
        · exact h.none q hqmem hp
        · cases List.mem_singleton.mp hqmem
          exact hearly hp
      · exact h
    · exact h
  | reply m status =>
    simp only [ProviderServer.step]
    split
    · rename_i k q hr
      -- a request that was sent is none of those the fence holds back
      have hmoved : ∀ stage, Fenced p n (w.moved m stage) := by
        intro stage
        refine h.moved fun a hamem ham hp hn => ?_
        cases hfound hr hamem ham
        have hheld := h.held _ hamem hp hn
        simp at hheld
      split
      · exact ⟨h.latest, h.arrivals, (hmoved .finished).held, h.none⟩
      · exact ⟨h.latest, h.arrivals, (hmoved _).held, h.none⟩
    · exact h
  | note m clock =>
    simp only [ProviderServer.step] at hlatest ⊢
    split
    · rename_i k q status count hr
      rw [hr] at hlatest
      exact ⟨hlatest, h.arrivals, (hover m).held, h.none⟩
    · exact h
  | leave m => exact hover m
  | probe q status clock =>
    simp only [ProviderServer.step] at hlatest ⊢
    split
    · rename_i hst
      rw [if_pos hst] at hlatest
      exact ⟨hlatest, h.arrivals, h.held, h.none⟩
    · exact h
  | incident i => exact ⟨hlatest, h.arrivals, h.held, h.none⟩
  | restart => exact ⟨hlatest, h.arrivals, fun r hr => absurd hr List.not_mem_nil, h.none⟩

/-! ## The fence over every run -/

/-- In a run that records no other provider's rejection over the provider's own, no request that comes
    after the rejection is dispatched, through restarts and whatever else is recorded. -/
theorem fence_durable (limit : ℤ) (p : Provider) (before after : List Event)
    (hrejected : Rejected p (run (step limit) {} before))
    (hmask : Allowed (step limit) (Unmasked p) {} (before ++ after)) :
    ∀ r ∈ (run (step limit) {} (before ++ after)).dispatched, r.provider = p →
      r.number < (run (step limit) {} before).arrivals := by
  obtain ⟨hbefore, hafter⟩ := (allowed_append _ _ _).mp hmask
  have hnumbered : Numbered (run (step limit) {} before) :=
    invariant_all (fun w e h => h.step limit e) before numbered_init
  have hforemost : Rejected p (run (step limit) {} before) → Foremost p (run (step limit) {} before) := by
    refine invariant (I := fun w => Rejected p w → Foremost p w)
      (fun w e h hok => foremost_step limit e h hok) ?_ hbefore
    rintro ⟨i, hi, -⟩
    cases hi
  have hfenced : Fenced p (run (step limit) {} before).arrivals (run (step limit) {} before) := by
    refine ⟨hforemost hrejected, le_refl _, ?_, ?_⟩
    · intro r hr _ hn
      exact absurd (hnumbered.given r hr) (not_lt.mpr hn)
    · intro r hr _
      exact hnumbered.sent r hr
  rw [run_append]
  refine (invariant (I := fun w => Numbered w ∧ Fenced p (run (step limit) {} before).arrivals w)
    (fun w e h hok => ?_) ⟨hnumbered, hfenced⟩ hafter).2.none
  exact ⟨h.1.step limit e, h.2.step limit h.1 e hok⟩

/-- A request to a provider that comes, passes the breaker and is sent. -/
def served (p : Provider) (n : ℕ) : List Event :=
  [.arrive p, .check n, .check n, .check n, .dispatch n]

def refusedCredential (p : Provider) (n : ℕ) : List Event := served p n ++ [.reply n 401, .note n 1]

/-- Without the latest incident of either kind naming it, a provider is asked again after a restart. -/
theorem masked_fence_opens {limit : ℤ} (hlimit : 0 ≤ limit) {p : Provider} {w : World}
    (hmasked : ∀ kind ∈ breakerIncidents, incidentRefusal w.store p kind = none) :
    ∃ r ∈ (run (step limit) w (.restart :: served p w.arrivals)).dispatched,
      r.provider = p ∧ r.number = w.arrivals := by
  have hcount : countRefusal limit p 0 = none := by
    refine if_neg ?_
    simp only [limitReached, decide_eq_true_eq]
    omega
  have hfirst := hmasked "provider_unauthorized" (by simp [breakerIncidents])
  have hsecond := hmasked "provider_consecutive_failures" (by simp [breakerIncidents])
  refine ⟨⟨w.arrivals, p, .admitted⟩, ?_, rfl, rfl⟩
  simp [served, step, World.request, World.moved, limbRefusal, nextLimb, hcount, hfirst, hsecond]

theorem fence_durable_exa :
    Rejected .exa (run (step 5) {} (refusedCredential .exa 0)) ∧
    ∀ r ∈ (run (step 5) {} (refusedCredential .exa 0 ++ (.restart :: served .exa 1 ++ served .tavily 2))).dispatched,
      r.provider = .exa → r.number < (run (step 5) {} (refusedCredential .exa 0)).arrivals :=
  ⟨by decide +kernel, fence_durable 5 .exa (refusedCredential .exa 0)
    (.restart :: served .exa 1 ++ served .tavily 2) (by decide +kernel) (by decide +kernel)⟩

/-- Once another provider's credential is refused too, the first one's fence is gone. -/
theorem later_rejection_lifts_the_fence :
    ¬ ∀ (limit : ℤ) (p : Provider) (before after : List Event),
      Rejected p (run (step limit) {} before) →
      ∀ r ∈ (run (step limit) {} (before ++ after)).dispatched, r.provider = p →
        r.number < (run (step limit) {} before).arrivals := by
  intro h
  have hrun := h 5 .exa (refusedCredential .exa 0) (refusedCredential .tavily 1 ++ served .exa 2) (by decide +kernel)
  revert hrun
  decide +kernel

end Shapeflow.ProviderServer
