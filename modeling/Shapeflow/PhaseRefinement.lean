import Shapeflow.PhaseStore

set_option autoImplicit false

/-!
# Phases that complete once, along legal edges

A COMPLETE phase stays as it is until a call of `fail` names it. Calls that
complete only what is running move along legal edges; the paths that can be
driven are those that do not complete the characterization of a no-go.
-/
namespace Shapeflow.Phases
open Py Canonical

/-! ## A phase completes once -/

instance (t : PhaseTables) (sha : String) (p : Phase) (digest : String) : Decidable (CompleteWith t sha p digest) :=
  decidable_of_iff ((record sha t p).any fun row => row.state = .complete ∧ row.detailSha = digest)
    (by simp [CompleteWith, Option.any_eq_true])

def failsPhase (sha : String) (p : Phase) : Op → Prop
  | .fail sha' p' _ _ => sha' = sha ∧ p' = p
  | _ => False

instance (sha : String) (p : Phase) (op : Op) : Decidable (failsPhase sha p op) := by
  cases op <;> unfold failsPhase <;> infer_instance

theorem step_completeWith_iff (store : PhaseStore) {t : PhaseTables} {sha : String} {p : Phase} {digest : String}
    (h : CompleteWith t sha p digest) (op : Op) :
    CompleteWith (step store t op) sha p digest ↔ ¬ failsPhase sha p op := by
  obtain ⟨row, hrow, hstate, hdigest⟩ := h
  have hdone : isComplete sha t p = true := isComplete_iff.mpr (by simp [stateOf, hrow, hstate])
  have hother : ∀ {sha' p'}, isComplete sha' t p' = false → ¬ (sha = sha' ∧ p = p') := by
    rintro sha' p' hnot ⟨rfl, rfl⟩
    rw [hdone] at hnot
    cases hnot
  have hkept : ∀ {t' : PhaseTables}, record sha t' p = record sha t p → CompleteWith t' sha p digest :=
    fun heq => ⟨row, heq.trans hrow, hstate, hdigest⟩
  rcases step_cases store t op with hsame | ⟨sha', p', reason, now, rfl, hnot, -, hrec⟩ |
    ⟨sha', p', detail, now, raw, rfl, -, hnot, hrec⟩ | ⟨sha', p', reason, now, rfl, hrec⟩
  · refine iff_of_true (hkept (by rw [hsame])) ?_
    cases op with
    | fail sha' p' reason now =>
      rintro ⟨rfl, rfl⟩
      have hfailed := record_writeRow t sha' sha' p' p' (failedRow now reason (record sha' t p'))
      have hstep : writeRow sha' t p' (failedRow now reason (record sha' t p')) = t := hsame
      rw [hstep, if_pos ⟨rfl, rfl⟩, hrow] at hfailed
      have hstates := congrArg PhaseRow.state (Option.some.inj hfailed)
      rw [hstate] at hstates
      cases hstates
    | begin | complete => exact id
  · exact iff_of_true (hkept (by rw [hrec, if_neg (hother hnot)])) id
  · exact iff_of_true (hkept (by rw [hrec, if_neg (hother hnot)])) id
  · by_cases hthis : sha = sha' ∧ p = p'
    · obtain ⟨rfl, rfl⟩ := hthis
      refine iff_of_false ?_ (fun hnot => hnot ⟨rfl, rfl⟩)
      rintro ⟨row', hrow', hstate', -⟩
      rw [hrec, if_pos ⟨rfl, rfl⟩, hrow] at hrow'
      rw [← Option.some.inj hrow'] at hstate'
      cases hstate'
    · refine iff_of_true (hkept (by rw [hrec, if_neg hthis])) ?_
      rintro ⟨rfl, rfl⟩
      exact hthis ⟨rfl, rfl⟩

/-- A COMPLETE phase keeps its digest through every state of a run exactly when no call fails it. -/
theorem complete_once_iff (store : PhaseStore) {t : PhaseTables} {sha : String} {p : Phase} {digest : String}
    (h : CompleteWith t sha p digest) (ops : List Op) :
    (∀ before, before <+: ops → CompleteWith (Run.run (step store) t before) sha p digest) ↔
      ∀ op ∈ ops, ¬ failsPhase sha p op := by
  have hkeep : ∀ s op, CompleteWith s sha p digest → (fun _ op => ¬ failsPhase sha p op : PhaseTables → Op → Prop) s op →
      CompleteWith (step store s op) sha p digest := fun s op hs hop => (step_completeWith_iff store hs op).mpr hop
  rw [Run.always_iff_allowed (I := fun t => CompleteWith t sha p digest) (J := fun t => CompleteWith t sha p digest)
    (fun _ => id) hkeep (fun s op hs hstep => (step_completeWith_iff store hs op).mp hstep) ops h]
  induction ops generalizing t with
  | nil => simp [Run.Allowed]
  | cons op ops ih =>
    rw [List.forall_mem_cons, Run.Allowed]
    refine and_congr_right fun hop => ih ?_
    exact (step_completeWith_iff store h op).mpr hop

def sampleStore : PhaseStore := ⟨.empty, fun raw => toString raw.size⟩

def doctorTwice : List Op :=
  [.begin "binding" .doctorPassed "" 0, .complete "binding" .doctorPassed (.dict []) 1]

theorem complete_once_iff_rerun :
    (∀ before, before <+: doctorTwice →
      CompleteWith (Run.run (step sampleStore) (Run.run (step sampleStore) .empty doctorTwice) before)
        "binding" .doctorPassed "2") ↔
      ∀ op ∈ doctorTwice, ¬ failsPhase "binding" .doctorPassed op :=
  complete_once_iff sampleStore (t := Run.run (step sampleStore) .empty doctorTwice)
    (by decide +kernel) doctorTwice

/-- A late `fail` reopens the phase, which then completes with other evidence. -/
theorem late_fail_reopens :
    CompleteWith (Run.run (step sampleStore) .empty doctorTwice) "binding" .doctorPassed "2" ∧
    ¬ CompleteWith (Run.run (step sampleStore) .empty
        (doctorTwice ++ [.fail "binding" .doctorPassed (pyStr "late") 2])) "binding" .doctorPassed "2" ∧
    CompleteWith (Run.run (step sampleStore) .empty
        (doctorTwice ++ [.fail "binding" .doctorPassed (pyStr "late") 2,
          .complete "binding" .doctorPassed (.dict [(.str (pyStr "a"), .int 1)]) 3])) "binding" .doctorPassed "7" := by
  decide +kernel

/-! ## Legal edges -/

/-- The campaign has been through the phase: it is NEW, or COMPLETE. -/
def Attained (t : PhaseTables) (sha : String) (q : Phase) : Prop :=
  q = .new ∨ stateOf t sha q = some .complete

/-- A phase that becomes RUNNING or COMPLETE does so along a legal edge from an attained phase. -/
def AlongEdges (t t' : PhaseTables) : Prop :=
  ∀ sha p, (stateOf t' sha p = some .running ∨ stateOf t' sha p = some .complete) →
    stateOf t' sha p ≠ stateOf t sha p → ∃ q, Attained t sha q ∧ canTransition q p

/-- Completes what is running or complete, fails nothing that is complete, and does not begin NEW. -/
def Orderly (t : PhaseTables) : Op → Prop
  | .begin sha p _ _ => p = .new → current sha t ≠ .new
  | .complete sha p _ _ => stateOf t sha p = some .running ∨ stateOf t sha p = some .complete
  | .fail sha p _ _ => stateOf t sha p ≠ some .complete

instance (t : PhaseTables) (op : Op) : Decidable (Orderly t op) := by
  cases op <;> unfold Orderly <;> infer_instance

/-- What is running came along a legal edge from a phase that is still attained. -/
def Grounded (t : PhaseTables) : Prop :=
  ∀ sha p, stateOf t sha p = some .running → ∃ q, Attained t sha q ∧ canTransition q p

theorem grounded_empty : Grounded .empty := by
  intro sha p h
  cases h

theorem foldl_latest_mem (done : Phase → Bool) (xs : List Phase) (init : Phase) :
    xs.foldl (fun latest p => if done p then p else latest) init = init ∨
      done (xs.foldl (fun latest p => if done p then p else latest) init) = true := by
  induction xs generalizing init with
  | nil => exact .inl rfl
  | cons p xs ih =>
    rw [List.foldl_cons]
    by_cases hp : done p
    · rw [if_pos hp]
      rcases ih p with hsame | hdone
      · rw [hsame]
        exact .inr hp
      · exact .inr hdone
    · rw [if_neg hp]
      exact ih init

theorem current_attained (sha : String) (t : PhaseTables) : Attained t sha (current sha t) := by
  rcases foldl_latest_mem (isComplete sha t) order .new with hnew | hdone
  · exact .inl hnew
  · exact .inr (isComplete_iff.mp hdone)

theorem stateOf_of_record {t t' : PhaseTables} {sha sha' : String} {p p' : Phase} {row : PhaseRow}
    (h : record sha' t' p' = if sha' = sha ∧ p' = p then some row else record sha' t p') :
    stateOf t' sha' p' = if sha' = sha ∧ p' = p then some row.state else stateOf t sha' p' := by
  unfold stateOf
  rw [h]
  split <;> rfl

theorem begunRow_state (now : ℚ) (row : Option PhaseRow) : (begunRow now row).state = .running := by
  cases row <;> rfl

theorem completedRow_state (now : ℚ) (detail : Value) (digest : String) (row : Option PhaseRow) :
    (completedRow now detail digest row).state = .complete := by
  cases row <;> rfl

theorem failedRow_state (now : ℚ) (reason : PyStr) (row : Option PhaseRow) :
    (failedRow now reason row).state = .failed := by
  cases row <;> rfl

/-- One phase changes its state, and none that was complete stops being it. -/
theorem attained_kept {t t' : PhaseTables} {sha : String} {p : Phase} {state : PhaseState}
    (h : ∀ sha' p', stateOf t' sha' p' = if sha' = sha ∧ p' = p then some state else stateOf t sha' p')
    (hp : state = .complete ∨ stateOf t sha p ≠ some .complete) {sha' : String} {q : Phase}
    (hq : Attained t sha' q) : Attained t' sha' q := by
  rcases hq with hnew | hdone
  · exact .inl hnew
  · right
    rw [h]
    split
    · rename_i hsame
      obtain ⟨rfl, rfl⟩ := hsame
      rcases hp with hcomplete | hnot
      · rw [hcomplete]
      · exact absurd hdone hnot
    · exact hdone

theorem step_orderly (store : PhaseStore) {t : PhaseTables} (ht : Grounded t) {op : Op} (hop : Orderly t op) :
    AlongEdges t (step store t op) ∧ Grounded (step store t op) := by
  rcases step_cases store t op with hsame | ⟨sha, p, reason, now, rfl, hnot, hedge, hrec⟩ |
    ⟨sha, p, detail, now, raw, rfl, -, hnot, hrec⟩ | ⟨sha, p, reason, now, rfl, hrec⟩
  · rw [hsame]
    exact ⟨fun _ _ _ hne => absurd rfl hne, ht⟩
  · have hstates := fun sha' p' => stateOf_of_record (hrec sha' p')
    simp only [begunRow_state] at hstates
    have hcomplete : stateOf t sha p ≠ some .complete := by
      intro h
      rw [isComplete_iff.mpr h] at hnot
      cases hnot
    have htransition : canTransition (current sha t) p := by
      rcases hedge with hcurrent | htransition
      · exfalso
        rcases current_attained sha t with hnew | hdone
        · exact hop (hcurrent.trans hnew) hnew
        · rw [← hcurrent] at hdone
          exact hcomplete hdone
      · exact htransition
    refine ⟨?_, ?_⟩
    · intro sha' p' _ hne
      rw [hstates] at hne
      split at hne
      · rename_i hsame
        obtain ⟨rfl, rfl⟩ := hsame
        exact ⟨_, current_attained sha' t, htransition⟩
      · exact absurd rfl hne
    · intro sha' p' hrunning
      rw [hstates] at hrunning
      split at hrunning
      · rename_i hsame
        obtain ⟨rfl, rfl⟩ := hsame
        exact ⟨_, attained_kept hstates (.inr hcomplete) (current_attained sha' t), htransition⟩
      · obtain ⟨q, hq, hstep⟩ := ht sha' p' hrunning
        exact ⟨q, attained_kept hstates (.inr hcomplete) hq, hstep⟩
  · have hstates := fun sha' p' => stateOf_of_record (hrec sha' p')
    simp only [completedRow_state] at hstates
    have hrunning : stateOf t sha p = some .running := by
      rcases hop with hrunning | hcomplete
      · exact hrunning
      · rw [isComplete_iff.mpr hcomplete] at hnot
        cases hnot
    refine ⟨?_, ?_⟩
    · intro sha' p' _ hne
      rw [hstates] at hne
      split at hne
      · rename_i hsame
        obtain ⟨rfl, rfl⟩ := hsame
        exact ht sha' p' hrunning
      · exact absurd rfl hne
    · intro sha' p' hrunning'
      rw [hstates] at hrunning'
      split at hrunning'
      · cases hrunning'
      · obtain ⟨q, hq, hstep⟩ := ht sha' p' hrunning'
        exact ⟨q, attained_kept hstates (.inl rfl) hq, hstep⟩
  · have hstates := fun sha' p' => stateOf_of_record (hrec sha' p')
    simp only [failedRow_state] at hstates
    refine ⟨?_, ?_⟩
    · intro sha' p' hactive hne
      rw [hstates] at hactive hne
      split at hne
      · rename_i hsame
        rw [if_pos hsame] at hactive
        rcases hactive with h | h <;> cases h
      · exact absurd rfl hne
    · intro sha' p' hrunning
      rw [hstates] at hrunning
      split at hrunning
      · cases hrunning
      · obtain ⟨q, hq, hstep⟩ := ht sha' p' hrunning
        exact ⟨q, attained_kept hstates (.inr hop) hq, hstep⟩

theorem run_orderly (store : PhaseStore) {t : PhaseTables} (ht : Grounded t) {ops : List Op}
    (hops : Run.Allowed (step store) Orderly t ops) {before : List Op} {op : Op} (hb : before ++ [op] <+: ops) :
    AlongEdges (Run.run (step store) t before) (step store (Run.run (step store) t before) op) := by
  obtain ⟨after, rfl⟩ := hb
  rw [List.append_assoc, Run.allowed_append] at hops
  have hgrounded : Grounded (Run.run (step store) t before) :=
    Run.invariant (I := Grounded) (fun s op hs hop => (step_orderly store hs hop).2) ht hops.1
  exact (step_orderly store hgrounded hops.2.1).1

/-! ## Paths that can be driven -/

/-- Each phase of the path is begun and then completed. -/
def drive (store : PhaseStore) (sha : String) (detail : Phase → Value) (now : ℚ) :
    PhaseTables → List Phase → Except PhaseError PhaseTables
  | t, [] => .ok t
  | t, p :: path =>
    match begin sha t p "" now with
    | .error e => .error e
    | .ok t' =>
      match complete store sha t' p (detail p) now with
      | .error e => .error e
      | .ok (_, t'') => drive store sha detail now t'' path

def Driven (store : PhaseStore) (sha : String) (detail : Phase → Value) (now : ℚ) (t : PhaseTables)
    (path : List Phase) : Prop :=
  ∃ t', drive store sha detail now t path = .ok t'

/-- The last phase of the spine, and the phase the path is at. -/
def Trails (latest p : Phase) : Prop :=
  latest = p ∧ p ∈ order ∨ p = .liveValidityOptional ∧ latest = .holdoutComplete ∨
    p = .characterizeNoGoRunning ∧ (latest = .screenComplete ∨ latest = .miniIttComplete) ∨
    p ∈ terminalPhases ∧ p ≠ .reportComplete

instance (latest p : Phase) : Decidable (Trails latest p) := inferInstanceAs (Decidable (_ ∨ _))

/-- Of the phases of the spine that are done, `latest` is the furthest. -/
def Furthest (done : Phase → Bool) (latest : Phase) : Prop :=
  latest ∈ order ∧ (latest = .new ∨ done latest = true) ∧
    ∀ p ∈ order, done p = true → order.idxOf p ≤ order.idxOf latest

theorem foldl_latest_of_none {done : Phase → Bool} {xs : List Phase} (h : ∀ p ∈ xs, done p = false) (init : Phase) :
    xs.foldl (fun latest p => if done p then p else latest) init = init := by
  induction xs with
  | nil => rfl
  | cons p xs ih =>
    obtain ⟨hp, hxs⟩ := List.forall_mem_cons.mp h
    rw [List.foldl_cons, if_neg (by simp [hp])]
    exact ih hxs

theorem foldl_latest {done : Phase → Bool} {xs : List Phase} (hxs : xs.Nodup) {latest : Phase} (hmem : latest ∈ xs)
    (hdone : done latest = true) (hfar : ∀ p ∈ xs, done p = true → xs.idxOf p ≤ xs.idxOf latest) (init : Phase) :
    xs.foldl (fun latest p => if done p then p else latest) init = latest := by
  induction xs generalizing init with
  | nil => cases hmem
  | cons x xs ih =>
    obtain ⟨hx, hrest⟩ := List.nodup_cons.mp hxs
    rw [List.foldl_cons]
    by_cases heq : x = latest
    · subst heq
      rw [if_pos hdone]
      apply foldl_latest_of_none
      intro p hp
      by_contra hd
      have hle := hfar p (List.mem_cons_of_mem _ hp) (by simpa using hd)
      have hne : x ≠ p := fun h => hx (h ▸ hp)
      rw [List.idxOf_cons_self, List.idxOf_cons_ne _ hne] at hle
      omega
    · have hin : latest ∈ xs := (List.mem_cons.mp hmem).resolve_left (Ne.symm heq)
      apply ih hrest hin
      intro p hp hd
      have hle := hfar p (List.mem_cons_of_mem _ hp) hd
      have hne : x ≠ p := fun h => hx (h ▸ hp)
      rw [List.idxOf_cons_ne _ hne, List.idxOf_cons_ne _ heq] at hle
      omega

theorem current_of_furthest {sha : String} {t : PhaseTables} {latest : Phase}
    (h : Furthest (isComplete sha t) latest) : current sha t = latest := by
  obtain ⟨hmem, hdone, hfar⟩ := h
  by_cases hcomplete : isComplete sha t latest = true
  · exact foldl_latest order_nodup hmem hcomplete hfar .new
  · have hnew : latest = .new := hdone.resolve_right hcomplete
    subst hnew
    apply foldl_latest_of_none
    intro p hp
    by_contra hd
    have hle := hfar p hp (by simpa using hd)
    have hzero : order.idxOf Phase.new = 0 := by decide
    rw [hzero, Nat.le_zero, ← hzero] at hle
    have hpnew : p = .new := (List.idxOf_inj hp).mp hle
    subst hpnew
    exact hcomplete (by simpa using hd)

/-- The latest phase allows `q` too, and goes forward with it on the spine. -/
def Advances (latest q : Phase) : Prop :=
  canTransition latest q ∧ Trails (if q ∈ order then q else latest) q ∧
    (q ∈ order → order.idxOf latest < order.idxOf q)

instance (latest q : Phase) : Decidable (Advances latest q) := inferInstanceAs (Decidable (_ ∧ _ ∧ _))

/-- One edge further: the latest phase still allows it, unless it completes the characterization. -/
theorem trails_next {latest p q : Phase} (h : Trails latest p) (hmem : latest ∈ order) (hedge : canTransition p q)
    (hno : q ≠ .characterizeNoGoComplete) : Advances latest q := by
  have hall : ∀ latest ∈ order, ∀ p ∈ every, Trails latest p →
      ∀ q ∈ nextPhases p, q ≠ .characterizeNoGoComplete → Advances latest q := by decide +kernel
  exact hall latest hmem p (mem_every p) h q hedge hno

theorem trails_characterized {latest p : Phase} (h : Trails latest p)
    (hedge : canTransition p .characterizeNoGoComplete) : ¬ canTransition latest .characterizeNoGoComplete := by
  have hall : ∀ latest ∈ every, ∀ p ∈ every, Trails latest p → canTransition p .characterizeNoGoComplete →
      ¬ canTransition latest .characterizeNoGoComplete := by decide +kernel
  exact hall latest (mem_every latest) p (mem_every p) h hedge

section
variable (store : PhaseStore) (sha : String) (detail : Phase → Value) (now : ℚ)

theorem begin_ok {t : PhaseTables} {q : Phase} (hedge : canTransition (current sha t) q) :
    ∃ t', begin sha t q "" now = .ok t' ∧ (∀ r, r ≠ q → record sha t' r = record sha t r) ∧
      (isComplete sha t' q = isComplete sha t q) ∧
      (isComplete sha t q = true → record sha t' q = record sha t q) := by
  by_cases hdone : isComplete sha t q
  · exact ⟨t, if_pos hdone, fun _ _ => rfl, rfl, fun _ => rfl⟩
  · have hlegal : ¬ (q ≠ current sha t ∧ ¬ canTransition (current sha t) q) := fun h => h.2 hedge
    have hbegun := record_writeRow t sha sha q
    refine ⟨_, by rw [begin, if_neg hdone, if_neg hlegal], fun r hr => ?_, ?_, fun h => absurd h hdone⟩
    · exact (hbegun r _).trans (if_neg fun h => hr h.2)
    · have hrow := (hbegun q (begunRow now (record sha t q))).trans (if_pos ⟨rfl, rfl⟩)
      have hnot : isComplete sha (writeRow sha t q (begunRow now (record sha t q))) q = false := by
        unfold isComplete
        rw [hrow]
        simp [begunRow_state]
      rw [show isComplete sha t q = false by simpa using hdone]
      exact hnot

theorem complete_ok {t : PhaseTables} {q : Phase} {raw : ByteArray}
    (hraw : canonicalJson store.floats (detail q) = .ok raw)
    (hsame : ∀ row, record sha t q = some row → row.state = .complete → row.detailSha = store.sha256Hex raw) :
    ∃ t', complete store sha t q (detail q) now = .ok (store.sha256Hex raw, t') ∧
      (∀ r, r ≠ q → record sha t' r = record sha t r) ∧
      CompleteWith t' sha q (store.sha256Hex raw) := by
  unfold complete
  have hwritten := fun row r => record_writeRow t sha sha q r row
  simp only [hraw]
  cases hrow : record sha t q with
  | none =>
    refine ⟨_, rfl, fun r hr => (hwritten _ r).trans (if_neg fun h => hr h.2), _,
      (hwritten _ q).trans (if_pos ⟨rfl, rfl⟩), rfl, rfl⟩
  | some row =>
    by_cases hstate : row.state = .complete
    · have hdigest := hsame row hrow hstate
      simp only [if_pos hstate, hdigest, ne_eq, not_true_eq_false, if_false]
      exact ⟨t, rfl, fun _ _ => rfl, row, hrow, hstate, hdigest⟩
    · simp only [if_neg hstate]
      exact ⟨_, rfl, fun r hr => (hwritten _ r).trans (if_neg fun h => hr h.2), _,
        (hwritten _ q).trans (if_pos ⟨rfl, rfl⟩), rfl, rfl⟩

/-- The phases that are complete hold the evidence they are driven with. -/
def Settled (t : PhaseTables) : Prop :=
  ∀ q row, record sha t q = some row → row.state = .complete →
    ∃ raw, canonicalJson store.floats (detail q) = .ok raw ∧ row.detailSha = store.sha256Hex raw

variable {store sha detail}

theorem drive_cons (hdetail : ∀ q, ∃ raw, canonicalJson store.floats (detail q) = .ok raw) {t : PhaseTables}
    (ht : Settled store sha detail t) {q : Phase} (hedge : canTransition (current sha t) q) :
    ∃ t', (∀ path, drive store sha detail now t (q :: path) = drive store sha detail now t' path) ∧
      Settled store sha detail t' ∧ ∀ r, isComplete sha t' r = true ↔ r = q ∨ isComplete sha t r = true := by
  obtain ⟨t₁, hbegin, hother₁, hcomplete₁, hkept₁⟩ := begin_ok sha now hedge
  obtain ⟨raw, hraw⟩ := hdetail q
  have hsame : ∀ row, record sha t₁ q = some row → row.state = .complete → row.detailSha = store.sha256Hex raw := by
    intro row hrow hstate
    have hdone : isComplete sha t₁ q = true := by simp [isComplete, hrow, hstate]
    rw [hcomplete₁] at hdone
    obtain ⟨raw', hraw', hdigest⟩ := ht q row ((hkept₁ hdone) ▸ hrow) hstate
    rw [hraw] at hraw'
    rw [hdigest, Except.ok.inj hraw']
  obtain ⟨t₂, hcomplete, hother₂, row, hrow, hstate, hdigest⟩ := complete_ok store sha detail now hraw hsame
  have hothers : ∀ r, r ≠ q → record sha t₂ r = record sha t r :=
    fun r hr => (hother₂ r hr).trans (hother₁ r hr)
  refine ⟨t₂, fun path => ?_, fun r row' hrow' hstate' => ?_, fun r => ?_⟩
  · simp only [drive, hbegin, hcomplete]
  · by_cases hr : r = q
    · subst hr
      rw [hrow] at hrow'
      exact ⟨raw, hraw, Option.some.inj hrow' ▸ hdigest⟩
    · rw [hothers r hr] at hrow'
      exact ht r row' hrow' hstate'
  · by_cases hr : r = q
    · subst hr
      simp [isComplete, hrow, hstate]
    · simp [isComplete, hothers r hr, hr]

theorem driven_iff (hdetail : ∀ q, ∃ raw, canonicalJson store.floats (detail q) = .ok raw) {path : List Phase}
    {t : PhaseTables} (ht : Settled store sha detail t) {latest p : Phase} (hlatest : Furthest (isComplete sha t) latest)
    (htrails : Trails latest p) (hno : isComplete sha t .characterizeNoGoComplete = false) (hpath : LegalPath p path) :
    Driven store sha detail now t path ↔ .characterizeNoGoComplete ∉ path := by
  induction path generalizing t latest p with
  | nil => simp [Driven, drive]
  | cons q path ih =>
    have hcurrent := current_of_furthest hlatest
    obtain ⟨hedge, hrest⟩ := hpath
    by_cases hq : q = .characterizeNoGoComplete
    · subst hq
      have hrefused := trails_characterized htrails hedge
      rw [← hcurrent] at hrefused
      have hne : Phase.characterizeNoGoComplete ≠ current sha t := by
        rw [hcurrent]
        intro h
        have hmem := hlatest.1
        rw [← h] at hmem
        exact absurd hmem (by decide)
      refine iff_of_false ?_ (by simp)
      rintro ⟨t', hdrive⟩
      simp only [drive, begin, hno, Bool.false_eq_true, if_false, if_pos (And.intro hne hrefused)] at hdrive
      cases hdrive
    · obtain ⟨hallowed, hnext, hforward⟩ := trails_next htrails hlatest.1 hedge hq
      obtain ⟨t', hdrive, hsettled, hdone⟩ := drive_cons now hdetail ht (hcurrent.symm ▸ hallowed)
      have hnot : isComplete sha t' .characterizeNoGoComplete = false := by
        by_contra h
        rcases (hdone _).mp (by simpa using h) with heq | hbefore
        · exact hq heq.symm
        · rw [hno] at hbefore
          cases hbefore
      have hfurthest : Furthest (isComplete sha t') (if q ∈ order then q else latest) := by
        obtain ⟨hmem, hlast, hfar⟩ := hlatest
        split
        · rename_i hspine
          refine ⟨hspine, .inr ((hdone q).mpr (.inl rfl)), fun r hr hd => ?_⟩
          have hlt := hforward hspine
          rcases (hdone r).mp hd with rfl | hbefore
          · exact Nat.le_refl _
          · have hle := hfar r hr hbefore
            omega
        · rename_i hspine
          refine ⟨hmem, hlast.imp_right fun h => (hdone latest).mpr (.inr h), fun r hr hd => ?_⟩
          rcases (hdone r).mp hd with rfl | hbefore
          · exact absurd hr hspine
          · exact hfar r hr hbefore
      have hdriven : Driven store sha detail now t (q :: path) ↔ Driven store sha detail now t' path := by
        unfold Driven
        rw [hdrive]
      rw [hdriven, ih hsettled hfurthest hnext hnot hrest, List.mem_cons, not_or]
      exact (and_iff_right (Ne.symm hq)).symm

end

theorem furthest_empty (sha : String) : Furthest (isComplete sha .empty) .new :=
  ⟨by decide, .inl rfl, fun _ _ h => nomatch h⟩

/-- Orderly calls move along legal edges; the legal paths that begin and complete can drive are those
    that do not complete the characterization of a no-go. -/
theorem phaseStore_refines (store : PhaseStore) (sha : String) :
    (∀ ops, Run.Allowed (step store) Orderly .empty ops → ∀ before op, before ++ [op] <+: ops →
      AlongEdges (Run.run (step store) .empty before) (step store (Run.run (step store) .empty before) op)) ∧
    (∀ (detail : Phase → Value) (now : ℚ), (∀ q, ∃ raw, canonicalJson store.floats (detail q) = .ok raw) →
      ∀ path, LegalPath .new path →
        (Driven store sha detail now .empty path ↔ .characterizeNoGoComplete ∉ path)) := by
  refine ⟨fun ops hops before op hb => run_orderly store grounded_empty hops hb, ?_⟩
  intro detail now hdetail path hpath
  exact driven_iff now hdetail (fun _ _ h => nomatch h) (furthest_empty sha) (.inl ⟨rfl, by decide⟩) rfl hpath

def noGoPath : List Phase :=
  [.doctorPassed, .acquisitionComplete, .snapshotsFrozen, .p0ParityPassed, .gpuSmokePassed, .screenRunning,
    .screenComplete, .characterizeNoGoRunning, .characterizeNoGoComplete]

theorem dict_canonical : ∃ raw, canonicalJson sampleStore.floats (.dict []) = .ok raw := by
  have hok : (canonicalJson sampleStore.floats (.dict [])).isOk = true := by decide +kernel
  cases hraw : canonicalJson sampleStore.floats (.dict []) with
  | ok raw => exact ⟨raw, rfl⟩
  | error e =>
    rw [hraw] at hok
    cases hok

theorem phaseStore_refines_doctor :
    AlongEdges (Run.run (step sampleStore) .empty [.begin "binding" .doctorPassed "" 0])
      (step sampleStore (Run.run (step sampleStore) .empty [.begin "binding" .doctorPassed "" 0])
        (.complete "binding" .doctorPassed (.dict []) 1)) ∧
    (Driven sampleStore "binding" (fun _ => .dict []) 0 .empty [.doctorPassed, .acquisitionComplete] ↔
      .characterizeNoGoComplete ∉ [Phase.doctorPassed, .acquisitionComplete]) := by
  have hrefines := phaseStore_refines sampleStore "binding"
  refine ⟨hrefines.1 doctorTwice ?_ _ _ (List.prefix_refl _), hrefines.2 _ 0 (fun _ => dict_canonical) _ ?_⟩
  · exact ⟨by decide +kernel, by decide +kernel, trivial⟩
  · exact ⟨by decide, by decide, trivial⟩

/-- A report is complete with nothing behind it, and the no-go cannot be driven to its end. -/
theorem report_completes_alone :
    ¬ AlongEdges .empty (step sampleStore .empty (.complete "binding" .reportComplete (.dict []) 0)) ∧
    LegalPath .new noGoPath ∧ ¬ Driven sampleStore "binding" (fun _ => .dict []) 0 .empty noGoPath := by
  have hpath : LegalPath .new noGoPath := by
    refine ⟨?_, ?_, ?_, ?_, ?_, ?_, ?_, ?_, ?_, trivial⟩ <;> decide
  refine ⟨?_, hpath, ?_⟩
  · intro h
    obtain ⟨q, hq, hedge⟩ := h "binding" .reportComplete (.inr (by decide +kernel)) (by decide +kernel)
    rcases hq with rfl | hdone
    · exact absurd hedge (by decide)
    · cases hdone
  · have hsettled : Settled sampleStore "binding" (fun _ => .dict []) .empty := by
      intro q row h
      cases h
    rw [driven_iff 0 (fun _ => dict_canonical) hsettled (furthest_empty "binding") (.inl ⟨rfl, by decide⟩) rfl hpath]
    decide

end Shapeflow.Phases
