import Shapeflow.Run
import Shapeflow.WorkLedgerLives

set_option autoImplicit false

/-!
# Safety of the work ledger

What holds in every state a run of ledger calls goes through, by any workers on
any attempt ids, and which calls are to blame where it fails: `fail` looks at
neither the attempt's state nor the item's.
-/
namespace Shapeflow.WorkLedger
open Script Database Table WorkItemLife Relation Run

def liveAttempts (s : Database) (k : String) : List AttemptRow :=
  (attemptsOf s k).filter fun r => r.state ∈ inProgress

def committedAttempts (s : Database) (k : String) : List AttemptRow :=
  (attemptsOf s k).filter fun r => r.state = .committed

theorem live_length (s : Database) (wi : WorkItemRow) :
    (lifeOfItem s wi).tries.countP Try.live = (liveAttempts s wi.workKey).length := by
  unfold liveAttempts
  rw [← List.countP_eq_length_filter]
  exact List.countP_map

theorem lifeOf_of_mem {s : Database} {wi : WorkItemRow} (h : wi ∈ s.workItems.rows) :
    lifeOf s wi.workKey = some (lifeOfItem s wi) := by
  simp only [lifeOf, fetchWorkItem_of_mem h, Option.map_some]

theorem lifeOf_empty (k : String) : lifeOf .empty k = none := rfl

theorem owned_empty : Owned .empty := by
  intro r hr
  cases hr

/-! ## At most one live attempt -/

/-- The item row and its attempt rows agree on who holds the item. -/
def AtMostOneLive (s : Database) : Prop :=
  ∀ wi ∈ s.workItems.rows,
    (liveAttempts s wi.workKey).length ≤ 1 ∧
    (wi.state ∈ inProgress ↔ (liveAttempts s wi.workKey).length = 1) ∧
    (∀ att ∈ liveAttempts s wi.workKey, att.state = wi.state) ∧
    (wi.state = .pending ∨ wi.state ∈ terminalStates → liveAttempts s wi.workKey = [])

instance (s : Database) : Decidable (AtMostOneLive s) := inferInstanceAs (Decidable (∀ _ ∈ _, _))

def AllCoupled (s : Database) : Prop := ∀ k l, lifeOf s k = some l → Coupled l

theorem AllCoupled.atMostOneLive {s : Database} (h : AllCoupled s) : AtMostOneLive s := by
  intro wi hwi
  have hc := h _ _ (lifeOf_of_mem hwi)
  have hone := hc.one
  rw [live_length] at hone
  have hstate : (lifeOfItem s wi).live = decide (wi.state ∈ inProgress) := rfl
  rw [hstate] at hone
  refine ⟨?_, ?_, ?_, ?_⟩
  · split at hone <;> omega
  · by_cases hp : wi.state ∈ inProgress
    · simp [hone, hp]
    · simp [hone, hp]
  · intro att hatt
    obtain ⟨hmem, hlive⟩ := List.mem_filter.mp hatt
    exact hc.agree (tryOf att) (List.mem_map_of_mem hmem) hlive
  · intro hidle
    have hp : wi.state ∉ inProgress := by
      rcases hidle with h | h
      · simp [h, inProgress]
      · exact (terminal_not_live h).1
    simp only [hp, decide_false, Bool.false_eq_true, if_false] at hone
    exact List.length_eq_zero_iff.mp hone

/-- The call reports no failure, or one of an attempt that holds its item or whose item
    nobody holds. -/
def FailsHeld (s : Database) (call : Call) : Prop :=
  match call.op with
  | .fail a d _ _ _ => d ∈ dispositions → ∀ att ∈ s.attempts.rows, att.attemptId = a →
      ∀ wi ∈ s.workItems.rows, wi.workKey = att.workKey →
        att.state ∈ inProgress ∨ wi.state ∉ inProgress
  | _ => True

theorem FailsHeld.reports {s : Database} {call : Call} (h : FailsHeld s call) : Reports Holds s call := by
  obtain ⟨clock, op⟩ := call
  cases op with
  | fail a d err reason ref =>
    intro hd att wi hatt hwi
    obtain ⟨hmem, hid⟩ := fetchAttempt_some hatt
    obtain ⟨hwmem, hkey⟩ := fetchWorkItem_some hwi
    rcases h hd att hmem hid wi hwmem hkey with hlive | hdead
    · exact .inl (decide_eq_true hlive)
    · exact .inr (decide_eq_false hdead)
  | _ => trivial

theorem step_allCoupled (ledger : Ledger) {s : Database} {call : Call} (hs : Owned s ∧ AllCoupled s)
    (hok : FailsHeld s call) : Owned (step ledger s call) ∧ AllCoupled (step ledger s call) := by
  obtain ⟨hev, howned⟩ := step_evolves Holds ledger hs.1 (fun _ _ _ h => .inl h) hok.reports
  exact ⟨howned, hev.all coupled_fresh (fun _ _ h hsteps => h.steps hsteps) hs.2⟩

/-- A late failure reopens or ends an item while another attempt still holds it. -/
theorem failsHeld_of_step (ledger : Ledger) {s : Database} {call : Call} (hs : Owned s ∧ AllCoupled s)
    (hlive : AtMostOneLive (step ledger s call)) : FailsHeld s call := by
  obtain ⟨clock, op⟩ := call
  cases op with
  | fail a d err reason ref =>
    rintro hd att hmem rfl wi hwmem hkey
    by_contra hlate
    have hatt := fetchAttempt_of_mem hmem
    have hwi : fetchWorkItem s att.workKey = some wi := hkey ▸ fetchWorkItem_of_mem hwmem
    obtain ⟨t, ht, hrows⟩ := fail_rows clock err reason ref
      hd hatt hwi
    have hstep : step ledger s ⟨clock, .fail att.attemptId d err reason ref⟩ = t := after_of_ok ht
    rw [hstep] at hlive
    simp only [workRows, Prod.mk.injEq] at hrows
    obtain ⟨hitems, hatts, -⟩ := hrows
    have hnot : ¬ Holds (lifeOfItem s wi) (tryOf att) (failTarget wi d) := by
      intro hcon
      refine hlate (hcon.imp (fun h => of_decide_eq_true h) fun h => of_decide_eq_false h)
    have hbroken := not_coupled_ended (g := fun r => if ref = "" then r else some ref)
      (hs.2 _ _ (lifeOf_of_mem hwmem)) (tryOf_mem hatt hwi) hd (failTarget_routes s wi d) hnot
    rw [← lifeOfItem_ended clock hatts (fun _ => rfl) fun _ => rfl] at hbroken
    have hmoved : routedRow clock (failTarget wi d) wi ∈ t.workItems.rows := by
      rw [hitems]
      exact mem_updated.mpr ⟨wi, hwmem, by simp [hkey]⟩
    obtain ⟨-, hiff, -, -⟩ := hlive _ hmoved
    rw [live_length] at hbroken
    have hdead := of_decide_eq_false hbroken.2
    exact hdead (hiff.mpr hbroken.1)
  | _ => trivial

/-- The runs in which no item ever has two live attempts, or one that disagrees with it,
    are exactly those that never report the failure of a superseded attempt. -/
theorem atMostOneLive_iff (ledger : Ledger) (calls : List Call) :
    (∀ before, before <+: calls → AtMostOneLive (run (step ledger) .empty before)) ↔
      Allowed (step ledger) FailsHeld .empty calls := by
  refine always_iff_allowed (I := fun s => Owned s ∧ AllCoupled s) ?_ ?_ ?_ calls ?_
  · exact fun s hs => hs.2.atMostOneLive
  · exact fun s call hs hok => step_allCoupled ledger hs hok
  · exact fun s call hs hlive => failsHeld_of_step ledger hs hlive
  · refine ⟨owned_empty, fun k l hl => ?_⟩
    cases hl

/-- A ledger and one work item for runs on fixed inputs. -/
def sampleLedger : Ledger := ⟨.plain, 3⟩

def sampleItem : Coordinates :=
  { protocolSha := "p0", split := "SCREEN", phaseId := "screen", taskId := "t1", armId := "H",
    variantId := "H02" }

/-- A worker loses its lease, a second one claims the item, and the first reports its failure. -/
def lateFailure : List Call :=
  [⟨0, .ensureWorkItem sampleItem false none⟩, ⟨0, .claim "t1" "w1" 30 ""⟩, ⟨31, .reclaimStale none⟩,
    ⟨32, .claim "t1" "w2" 30 ""⟩, ⟨40, .fail "#/t1" .failedRetryable "Timeout" "" ""⟩]

theorem late_failure_frees_a_held_item :
    ¬ ∀ (ledger : Ledger) (calls : List Call), AtMostOneLive (run (step ledger) .empty calls) := by
  intro h
  have hrun := h sampleLedger lateFailure
  revert hrun
  decide +kernel

/-! ## Terminal items are absorbing -/

/-- The committed attempts of an item, as the id and the result each names. -/
def committedResults (s : Database) (k : String) : List (String × Option String) :=
  (committedAttempts s k).map fun r => (r.attemptId, r.resultObjectRef)

/-- The items that are terminal in `s` are in the same state in `t`, and a committed one
    has the same single committed attempt with the same result. -/
def KeepsTerminal (s t : Database) : Prop :=
  ∀ wi ∈ s.workItems.rows, wi.state ∈ terminalStates →
    ∃ wi' ∈ t.workItems.rows, wi'.workKey = wi.workKey ∧ wi'.state = wi.state ∧
      (wi.state = .committed → (committedAttempts s wi.workKey).length = 1 ∧
        committedResults t wi.workKey = committedResults s wi.workKey)

instance (s t : Database) : Decidable (KeepsTerminal s t) := inferInstanceAs (Decidable (∀ _ ∈ _, _))

/-- The failure of an attempt in progress, of a `PENDING` item, or one that sends a failed item
    where it already is. -/
def FailureInPlace (s : Database) (a : String) (d : WorkState) : Prop :=
  d ∈ dispositions → ∀ att ∈ s.attempts.rows, att.attemptId = a →
    ∀ wi ∈ s.workItems.rows, wi.workKey = att.workKey →
      att.state ∈ inProgress ∨ wi.state = .pending ∨
      (wi.state = .failedFinal ∧ (d = .failedFinal ∨ d = .failedRetryable ∧ ¬ retriesLeft wi)) ∨
      (wi.state = .failedUnknown ∧ d = .failedUnknown)

instance (s : Database) (a : String) (d : WorkState) : Decidable (FailureInPlace s a d) :=
  inferInstanceAs (Decidable (_ → ∀ _ ∈ _, _ → ∀ _ ∈ _, _ → _))

def FailsInPlace (s : Database) (call : Call) : Prop :=
  match call.op with
  | .fail a d _ _ _ => FailureInPlace s a d
  | _ => True

instance (s : Database) : ∀ call, Decidable (FailsInPlace s call)
  | ⟨_, .fail a d _ _ _⟩ => inferInstanceAs (Decidable (FailureInPlace s a d))
  | ⟨_, .ensureWorkItem ..⟩ | ⟨_, .claim ..⟩ | ⟨_, .heartbeat ..⟩ | ⟨_, .advance ..⟩ | ⟨_, .commit ..⟩
  | ⟨_, .blockBudget ..⟩ | ⟨_, .reclaimStale ..⟩ => .isTrue trivial

theorem FailsInPlace.reports {s : Database} {call : Call} (h : FailsInPlace s call) :
    Reports Lasting s call := by
  obtain ⟨clock, op⟩ := call
  cases op with
  | fail a d err reason ref =>
    intro hd att wi hatt hwi
    obtain ⟨hmem, hid⟩ := fetchAttempt_some hatt
    obtain ⟨hwmem, hkey⟩ := fetchWorkItem_some hwi
    rcases h hd att hmem hid wi hwmem hkey with hlive | hpending | ⟨hfinal, hd'⟩ | ⟨hunknown, rfl⟩
    · exact .inl (decide_eq_true hlive)
    · exact .inr (.inl hpending)
    · refine .inr (.inr ⟨?_, ?_⟩)
      · simp [lifeOfItem, hfinal, terminalStates]
      · rcases hd' with rfl | ⟨rfl, hnone⟩
        · exact hfinal.symm
        · exact (if_neg fun h => hnone h.2).trans hfinal.symm
    · refine .inr (.inr ⟨?_, ?_⟩)
      · simp [lifeOfItem, hunknown, terminalStates]
      · exact hunknown.symm
  | _ => trivial

/-- The invariant of the runs that keep terminal items. -/
def AllSettled (s : Database) : Prop := ∀ k l, lifeOf s k = some l → Coupled l ∧ Settled l

/-- Every life of `s` goes on in `t` and keeps what `Kept` says. -/
def LivesKept (s t : Database) : Prop := ∀ k l, lifeOf s k = some l → ∃ m, lifeOf t k = some m ∧ Kept l m

theorem kept_trans {l m n : Life String String} (h : Kept l m) (h' : Kept m n) : Kept l n := by
  refine ⟨?_, ?_⟩
  · intro hterm
    have hm := h.1 hterm
    rw [← hm] at hterm
    exact (h'.1 hterm).trans hm
  · intro hcom
    have hm := h.2 hcom
    subst hm
    exact h'.2 hcom

theorem step_keeps (ledger : Ledger) {s : Database} {call : Call} (hs : Owned s ∧ AllSettled s)
    (hok : FailsInPlace s call) :
    (Owned (step ledger s call) ∧ AllSettled (step ledger s call)) ∧
      LivesKept s (step ledger s call) := by
  obtain ⟨hev, howned⟩ := step_evolves Lasting ledger hs.1 (fun _ _ _ h => .inl h) hok.reports
  refine ⟨⟨howned, ?_⟩, ?_⟩
  · refine hev.all (fun n => ⟨coupled_fresh n, settled_fresh n⟩) ?_ hs.2
    intro l m hl hsteps
    obtain ⟨hc, hset, -⟩ := kept_steps hl.1 hl.2 hsteps
    exact ⟨hc, hset⟩
  · intro k l hl
    obtain ⟨m, hm, hsteps⟩ := hev.goes k l hl
    obtain ⟨hc, hset⟩ := hs.2 k l hl
    exact ⟨m, hm, (kept_steps hc hset hsteps).2.2⟩

theorem committedResults_of_life {s t : Database} {wi wi' : WorkItemRow}
    (hkey : wi'.workKey = wi.workKey) (h : lifeOfItem t wi' = lifeOfItem s wi) :
    committedResults t wi.workKey = committedResults s wi.workKey := by
  have htries : (attemptsOf t wi.workKey).map tryOf = (attemptsOf s wi.workKey).map tryOf := by
    have := congrArg Life.tries h
    simpa only [lifeOfItem, hkey] using this
  have hread : ∀ u : Database, committedResults u wi.workKey =
      (((attemptsOf u wi.workKey).map tryOf).filter Try.done).map fun x => (x.id, x.result) := by
    intro u
    rw [List.filter_map, List.map_map]
    rfl
  rw [hread, hread, htries]

theorem LivesKept.keepsTerminal {s t : Database} (hs : AllSettled s) (h : LivesKept s t) :
    KeepsTerminal s t := by
  intro wi hwi hterm
  have hl := lifeOf_of_mem hwi
  obtain ⟨m, hm, hstate, hsame⟩ := h _ _ hl
  obtain ⟨wi', hwi', rfl⟩ := Option.map_eq_some_iff.mp hm
  obtain ⟨hmem', hkey⟩ := fetchWorkItem_some hwi'
  refine ⟨wi', hmem', hkey, hstate hterm, ?_⟩
  intro hcom
  refine ⟨?_, committedResults_of_life hkey (hsame hcom)⟩
  have hset := (hs _ _ hl).2
  rw [Settled, if_pos (by exact hcom)] at hset
  unfold committedAttempts
  rw [← List.countP_eq_length_filter]
  exact (List.countP_map.symm.trans hset)

/-- In a run that reports no failure of a superseded or finished attempt, a terminal item
    stays as it is for the rest of the run. -/
theorem terminal_absorbing (ledger : Ledger) (before after : List Call)
    (hok : Allowed (step ledger) FailsInPlace .empty (before ++ after)) :
    KeepsTerminal (run (step ledger) .empty before) (run (step ledger) .empty (before ++ after)) := by
  rw [allowed_append] at hok
  have hstart : Owned .empty ∧ AllSettled .empty := by
    refine ⟨owned_empty, fun k l hl => ?_⟩
    cases hl
  have hmid := invariant (I := fun s => Owned s ∧ AllSettled s)
    (fun s call hs h => (step_keeps ledger hs h).1) hstart hok.1
  have hkept := relation (I := fun s => Owned s ∧ AllSettled s) (R := LivesKept)
    (fun s k l hl => ⟨l, hl, fun _ => rfl, fun _ => rfl⟩)
    (fun {s t u} h h' k l hl => by
      obtain ⟨m, hm, hlm⟩ := h k l hl
      obtain ⟨n, hn, hmn⟩ := h' k m hm
      exact ⟨n, hn, kept_trans hlm hmn⟩)
    (fun s call hs h => (step_keeps ledger hs h).1) (fun s call hs h => (step_keeps ledger hs h).2)
    hmid hok.2
  rw [run_append]
  exact LivesKept.keepsTerminal hmid.2 hkept

/-- An item without retries fails for good, and its worker reports once more. -/
def failedForGood : List Call :=
  [⟨0, .ensureWorkItem sampleItem false (some 0)⟩, ⟨0, .claim "t1" "w1" 30 ""⟩,
    ⟨5, .fail "#/t1" .failedRetryable "Timeout" "" ""⟩]

def afterwards : List Call :=
  [⟨6, .fail "#/t1" .failedRetryable "Timeout" "" ""⟩, ⟨7, .claim "t1" "w2" 30 ""⟩, ⟨90, .reclaimStale none⟩]

theorem terminal_absorbing_failedForGood :
    KeepsTerminal (run (step sampleLedger) .empty failedForGood)
      (run (step sampleLedger) .empty (failedForGood ++ afterwards)) :=
  terminal_absorbing sampleLedger failedForGood afterwards (by decide +kernel)

/-- The second worker of `lateFailure` commits before the first reports in. -/
def commitThenFailure : List Call :=
  [⟨0, .ensureWorkItem sampleItem false none⟩, ⟨0, .claim "t1" "w1" 30 ""⟩, ⟨31, .reclaimStale none⟩,
    ⟨32, .claim "t1" "w2" 30 ""⟩, ⟨33, .advance "##/t1" .materialized ""⟩,
    ⟨34, .advance "##/t1" .validated ""⟩, ⟨35, .commit "##/t1" "sha256:aa" ""⟩]

theorem late_failure_reopens_a_committed_item :
    ¬ ∀ (ledger : Ledger) (before after : List Call),
      KeepsTerminal (run (step ledger) .empty before) (run (step ledger) .empty (before ++ after)) := by
  intro h
  have hrun := h sampleLedger commitThenFailure [⟨36, .fail "#/t1" .failedRetryable "Timeout" "" ""⟩]
  revert hrun
  decide +kernel

end Shapeflow.WorkLedger
