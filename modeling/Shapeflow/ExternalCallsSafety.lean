import Shapeflow.BudgetAccounting
import Shapeflow.ExternalCallsSteps

set_option autoImplicit false

/-!
# Safety of the external-call ledger

What holds of every call in every state of a run that uses only handles it was
given. A closed call stays closed unless an attempt that was still in flight
when the call was abandoned commits: `commit` does not look at the call.
-/
namespace Shapeflow.ExternalCalls
open Script Database Table Run

def attemptsOf (s : Database) (callId : String) : List ExternalAttemptRow :=
  s.externalCallAttempts.rows.filter fun r => r.callId = callId

/-- The handle the call uses, if any, is one that `begin_attempt` returned. -/
def Issued (s : Database) (call : Call) : Prop :=
  match call.op.handle with
  | none => True
  | some h => ∃ r ∈ s.externalCallAttempts.rows,
      r.attemptId = h.attemptId ∧ r.callId = h.callId ∧ r.attemptOrdinal = h.attemptOrdinal

instance (s : Database) (call : Call) : Decidable (Issued s call) :=
  match h : call.op.handle with
  | none => .isTrue (by simp [Issued, h])
  | some a => decidable_of_iff (∃ r ∈ s.externalCallAttempts.rows,
      r.attemptId = a.attemptId ∧ r.callId = a.callId ∧ r.attemptOrdinal = a.attemptOrdinal)
      (by simp [Issued, h])

theorem Issued.callId {s : Database} {call : Call} {h : AttemptHandle} (hi : Issued s call)
    (hhandle : call.op.handle = some h) {r : ExternalAttemptRow} (hr : r ∈ s.externalCallAttempts.rows)
    (hid : r.attemptId = h.attemptId) : h.callId = r.callId := by
  unfold Issued at hi
  rw [hhandle] at hi
  obtain ⟨q, hq, hqid, hqcall, -⟩ := hi
  have hqr : q = r := eq_of_key s.externalCallAttempts.sound.1 hq hr (hqid.trans hid.symm)
  rw [← hqcall, hqr]

/-! ## The attempts of one call under an effect -/

theorem attemptsOf_advanced {s t : Database} {a : String} {state : CallAttemptState}
    {cols : List AttemptColumn} (h : t.externalCallAttempts.rows = attemptsAdvanced s a state cols)
    (c : String) :
    attemptsOf t c = updated (fun r => r.attemptId = a) (advancedRow state cols) (attemptsOf s c) := by
  unfold attemptsOf
  rw [h]
  exact filter_updated fun r _ _ => by simp

theorem ordinals_advanced {s t : Database} {a : String} {state : CallAttemptState}
    {cols : List AttemptColumn} (h : t.externalCallAttempts.rows = attemptsAdvanced s a state cols)
    (c : String) :
    (attemptsOf t c).map (·.attemptOrdinal) = (attemptsOf s c).map (·.attemptOrdinal) := by
  rw [attemptsOf_advanced h]
  exact map_updated _ fun r _ _ => by simp

theorem legalAttempt_not_terminal {a b : CallAttemptState} (h : b ∈ legalAttempt a) :
    a ∉ attemptTerminal := by
  cases a <;> simp [legalAttempt, attemptTerminal] at h ⊢

/-- Advancing a live attempt makes no attempt live that was not. -/
theorem live_advanced {s t : Database} {r : ExternalAttemptRow} (hr : r ∈ s.externalCallAttempts.rows)
    {state : CallAttemptState} {cols : List AttemptColumn} (hlegal : state ∈ legalAttempt r.state)
    (h : t.externalCallAttempts.rows = attemptsAdvanced s r.attemptId state cols) (c : String) :
    (liveAttempts t c).length ≤ (liveAttempts s c).length := by
  unfold liveAttempts
  rw [← List.countP_eq_length_filter, ← List.countP_eq_length_filter, h]
  have hcount := countP_updated (·.attemptId) (advancedRow state cols)
    (fun q => decide (q.callId = c ∧ q.state ∉ attemptTerminal)) s.externalCallAttempts.sound.1 hr
  have hlive := legalAttempt_not_terminal hlegal
  unfold attemptsAdvanced
  by_cases hc : r.callId = c
  · simp only [hc, hlive, not_false_eq_true, and_self, decide_true, if_true] at hcount
    split at hcount <;> omega
  · simp only [hc, false_and, decide_false, Bool.false_eq_true, if_false, advancedRow_callId] at hcount
    omega

/-- Two committed attempts of one call are one: the index `ux_one_external_commit`. -/
theorem committed_unique {s : Database} {p q : ExternalAttemptRow}
    (hp : p ∈ s.externalCallAttempts.rows) (hq : q ∈ s.externalCallAttempts.rows)
    (hpc : p.state = .committed) (hqc : q.state = .committed) (h : p.callId = q.callId) : p = q :=
  eq_of_key s.externalCallAttempts.sound.2.2 (List.mem_filter.mpr ⟨hp, decide_eq_true hpc⟩)
    (List.mem_filter.mpr ⟨hq, decide_eq_true hqc⟩) h

/-! ## What holds of every call -/

/-- The invariant of the runs that use issued handles. -/
structure CallsSound (s : Database) : Prop where
  owned : ∀ a ∈ s.externalCallAttempts.rows, ∃ c ∈ s.externalCalls.rows, c.callId = a.callId
  ordinals : ∀ c ∈ s.externalCalls.rows,
    (attemptsOf s c.callId).map (·.attemptOrdinal) = List.range c.attemptCount
  oneLive : ∀ c ∈ s.externalCalls.rows, (liveAttempts s c.callId).length ≤ 1
  bought : ∀ c ∈ s.externalCalls.rows, c.state = .committed ↔ c.committedAttemptId ≠ none
  names : ∀ c ∈ s.externalCalls.rows, ∀ i, c.committedAttemptId = some i →
    ∃ a ∈ s.externalCallAttempts.rows, a.attemptId = i ∧ a.callId = c.callId ∧ a.state = .committed
  named : ∀ a ∈ s.externalCallAttempts.rows, a.state = .committed →
    ∀ c ∈ s.externalCalls.rows, c.callId = a.callId → c.committedAttemptId = some a.attemptId

theorem callsSound_empty : CallsSound .empty where
  owned := by intro a ha; cases ha
  ordinals := by intro c hc; cases hc
  oneLive := by intro c hc; cases hc
  bought := by intro c hc; cases hc
  names := by intro c hc; cases hc
  named := by intro a ha; cases ha

theorem attemptsOf_congr {s t : Database} (h : t.externalCallAttempts.rows = s.externalCallAttempts.rows)
    (c : String) : attemptsOf t c = attemptsOf s c := by
  unfold attemptsOf
  rw [h]

theorem liveAttempts_congr {s t : Database} (h : t.externalCallAttempts.rows = s.externalCallAttempts.rows)
    (c : String) : liveAttempts t c = liveAttempts s c := by
  unfold liveAttempts
  rw [h]

/-- Rewriting calls in columns other than the ones the invariant reads. -/
theorem CallsSound.calls_updated {s t : Database} (hs : CallsSound s)
    (hatts : t.externalCallAttempts.rows = s.externalCallAttempts.rows)
    {p : ExternalCallRow → Bool} {f : ExternalCallRow → ExternalCallRow}
    (hcalls : t.externalCalls.rows = updated p f s.externalCalls.rows)
    (hid : ∀ c, (f c).callId = c.callId) (hcount : ∀ c, (f c).attemptCount = c.attemptCount)
    (hcommitted : ∀ c, (f c).committedAttemptId = c.committedAttemptId)
    (hstate : ∀ c, p c = true → ((f c).state = .committed ↔ c.state = .committed)) : CallsSound t := by
  have hback : ∀ c ∈ t.externalCalls.rows, ∃ q ∈ s.externalCalls.rows, c.callId = q.callId ∧
      c.attemptCount = q.attemptCount ∧ c.committedAttemptId = q.committedAttemptId ∧
      (c.state = .committed ↔ q.state = .committed) := by
    intro c hc
    rw [hcalls] at hc
    obtain ⟨q, hq, rfl⟩ := mem_updated.mp hc
    refine ⟨q, hq, ?_⟩
    split
    · rename_i hp
      exact ⟨hid q, hcount q, hcommitted q, hstate q hp⟩
    · exact ⟨rfl, rfl, rfl, Iff.rfl⟩
  constructor
  · intro a ha
    rw [hatts] at ha
    obtain ⟨c, hc, hca⟩ := hs.owned a ha
    refine ⟨_, by rw [hcalls]; exact mem_updated.mpr ⟨c, hc, rfl⟩, ?_⟩
    split
    · exact (hid c).trans hca
    · exact hca
  · intro c hc
    obtain ⟨q, hq, hci, hcc, -, -⟩ := hback c hc
    rw [attemptsOf_congr hatts, hci, hcc]
    exact hs.ordinals q hq
  · intro c hc
    obtain ⟨q, hq, hci, -⟩ := hback c hc
    rw [liveAttempts_congr hatts, hci]
    exact hs.oneLive q hq
  · intro c hc
    obtain ⟨q, hq, -, -, hcm, hst⟩ := hback c hc
    rw [hst, hcm]
    exact hs.bought q hq
  · intro c hc i hi
    obtain ⟨q, hq, hci, -, hcm, -⟩ := hback c hc
    rw [hatts, hci]
    exact hs.names q hq i (hcm ▸ hi)
  · intro a ha hst c hc hca
    rw [hatts] at ha
    obtain ⟨q, hq, hci, -, hcm, -⟩ := hback c hc
    rw [hcm]
    exact hs.named a ha hst q hq (hci.symm.trans hca)

theorem CallsSound.of_same {s t : Database} (hs : CallsSound s)
    (hcalls : t.externalCalls.rows = s.externalCalls.rows)
    (hatts : t.externalCallAttempts.rows = s.externalCallAttempts.rows) : CallsSound t := by
  refine hs.calls_updated (p := fun _ => false) (f := id) hatts ?_ (fun _ => rfl) (fun _ => rfl)
    (fun _ => rfl) fun _ _ => Iff.rfl
  rw [hcalls, updated_eq_self fun _ _ => rfl]

theorem CallsSound.opened {s t : Database} (hs : CallsSound s) {row : ExternalCallRow}
    (hnew : row.state = .opened ∧ row.attemptCount = 0 ∧ row.committedAttemptId = none)
    (hcalls : t.externalCalls.rows = s.externalCalls.rows ++ [row])
    (hatts : t.externalCallAttempts.rows = s.externalCallAttempts.rows) : CallsSound t := by
  have hfresh : ∀ a ∈ s.externalCallAttempts.rows, a.callId ≠ row.callId := by
    intro a ha he
    obtain ⟨c, hc, hca⟩ := hs.owned a ha
    have hkeys := t.externalCalls.sound
    unfold CallKeys at hkeys
    rw [hcalls, List.map_append, List.nodup_append] at hkeys
    exact hkeys.2.2 _ (List.mem_map_of_mem hc) _ (by simp) (hca.trans he)
  have hnone : attemptsOf s row.callId = [] :=
    List.filter_eq_nil_iff.mpr fun a ha => by simp [hfresh a ha]
  have hlive : liveAttempts s row.callId = [] :=
    List.filter_eq_nil_iff.mpr fun a ha => by simp [hfresh a ha]
  have hmem : ∀ c ∈ t.externalCalls.rows, c ∈ s.externalCalls.rows ∨ c = row := by
    intro c hc
    rw [hcalls, List.mem_append, List.mem_singleton] at hc
    exact hc
  constructor
  · intro a ha
    rw [hatts] at ha
    obtain ⟨c, hc, hca⟩ := hs.owned a ha
    exact ⟨c, by rw [hcalls]; exact List.mem_append_left _ hc, hca⟩
  · intro c hc
    rw [attemptsOf_congr hatts]
    rcases hmem c hc with hc | rfl
    · exact hs.ordinals c hc
    · rw [hnone, hnew.2.1]
      rfl
  · intro c hc
    rw [liveAttempts_congr hatts]
    rcases hmem c hc with hc | rfl
    · exact hs.oneLive c hc
    · rw [hlive]
      exact Nat.zero_le 1
  · intro c hc
    rcases hmem c hc with hc | rfl
    · exact hs.bought c hc
    · simp [hnew.1, hnew.2.2]
  · intro c hc j hj
    rcases hmem c hc with hc | rfl
    · rw [hatts]
      exact hs.names c hc j hj
    · rw [hnew.2.2] at hj
      cases hj
  · intro a ha hst c hc hca
    rw [hatts] at ha
    rcases hmem c hc with hc | rfl
    · exact hs.named a ha hst c hc hca
    · exact absurd hca.symm (hfresh a ha)

theorem CallsSound.begun {s t : Database} (hs : CallsSound s) {c : ExternalCallRow} {a : ExternalAttemptRow}
    {now : ℚ} (hc : c ∈ s.externalCalls.rows) (hlive : liveAttempts s c.callId = [])
    (hcall : a.callId = c.callId) (hord : a.attemptOrdinal = c.attemptCount) (hstate : a.state = .intent)
    (hcalls : t.externalCalls.rows = updated (fun r => r.callId = c.callId)
      (fun r => { r with attemptCount := c.attemptCount + 1, updatedAt := now }) s.externalCalls.rows)
    (hatts : t.externalCallAttempts.rows = s.externalCallAttempts.rows ++ [a]) : CallsSound t := by
  have hback : ∀ d ∈ t.externalCalls.rows, ∃ q ∈ s.externalCalls.rows, d.callId = q.callId ∧
      d.state = q.state ∧ d.committedAttemptId = q.committedAttemptId ∧
      d.attemptCount = if q.callId = c.callId then c.attemptCount + 1 else q.attemptCount := by
    intro d hd
    rw [hcalls] at hd
    obtain ⟨q, hq, rfl⟩ := mem_updated.mp hd
    refine ⟨q, hq, ?_⟩
    by_cases hqc : q.callId = c.callId <;> simp [hqc]
  constructor
  · intro b hb
    have howner : ∃ q ∈ s.externalCalls.rows, q.callId = b.callId := by
      rw [hatts, List.mem_append, List.mem_singleton] at hb
      rcases hb with hb | rfl
      · exact hs.owned b hb
      · exact ⟨c, hc, hcall.symm⟩
    obtain ⟨q, hq, hqb⟩ := howner
    refine ⟨_, by rw [hcalls]; exact mem_updated.mpr ⟨q, hq, rfl⟩, ?_⟩
    split <;> exact hqb
  · intro d hd
    obtain ⟨q, hq, hdi, -, -, hcount⟩ := hback d hd
    unfold attemptsOf
    rw [hatts, hdi, hcount, List.filter_append, List.map_append]
    by_cases hqc : q.callId = c.callId
    · have hqeq : q = c := eq_of_key s.externalCalls.sound hq hc hqc
      have hold := hs.ordinals c hc
      unfold attemptsOf at hold
      rw [if_pos hqc, hqc, hold, List.range_succ]
      simp [hcall, hord]
    · have hold := hs.ordinals q hq
      unfold attemptsOf at hold
      have hne : a.callId ≠ q.callId := fun e => hqc (e.symm.trans hcall)
      rw [if_neg hqc, hold]
      simp [hne]
  · intro d hd
    obtain ⟨q, hq, hdi, -⟩ := hback d hd
    unfold liveAttempts
    rw [hatts, hdi, List.filter_append, List.length_append]
    by_cases hqc : q.callId = c.callId
    · unfold liveAttempts at hlive
      rw [hqc, hlive]
      exact (Nat.zero_add _).le.trans (List.length_filter_le _ _)
    · have hne : a.callId ≠ q.callId := fun e => hqc (e.symm.trans hcall)
      have hold := hs.oneLive q hq
      unfold liveAttempts at hold
      simpa [hne] using hold
  · intro d hd
    obtain ⟨q, hq, -, hst, hcm, -⟩ := hback d hd
    rw [hst, hcm]
    exact hs.bought q hq
  · intro d hd j hj
    obtain ⟨q, hq, hdi, -, hcm, -⟩ := hback d hd
    obtain ⟨b, hb, hbj, hbc, hbs⟩ := hs.names q hq j (hcm ▸ hj)
    exact ⟨b, by rw [hatts]; exact List.mem_append_left _ hb, hbj, hbc.trans hdi.symm, hbs⟩
  · intro b hb hst d hd hdb
    obtain ⟨q, hq, hdi, -, hcm, -⟩ := hback d hd
    rw [hcm]
    rw [hatts, List.mem_append, List.mem_singleton] at hb
    rcases hb with hb | rfl
    · exact hs.named b hb hst q hq (hdi.symm.trans hdb)
    · rw [hstate] at hst
      cases hst

/-- Advancing an attempt of its own call, wherever the call's state stands. -/
theorem CallsSound.advanced {s t : Database} (hs : CallsSound s) {r : ExternalAttemptRow} {now : ℚ}
    {state : CallAttemptState} {cols : List AttemptColumn} (hr : r ∈ s.externalCallAttempts.rows)
    (hlegal : state ∈ legalAttempt r.state)
    (hatts : t.externalCallAttempts.rows = attemptsAdvanced s r.attemptId state cols)
    (hcalls : t.externalCalls.rows = callsAdvanced s now r.callId r.attemptId state) : CallsSound t := by
  have hadv : advancedRow state cols r ∈ t.externalCallAttempts.rows := by
    rw [hatts]
    exact mem_updated.mpr ⟨r, hr, by simp⟩
  -- An attempt of the new table is the advanced one or an old one of another id.
  have hback : ∀ a ∈ t.externalCallAttempts.rows, a = advancedRow state cols r ∨
      (a ∈ s.externalCallAttempts.rows ∧ a.attemptId ≠ r.attemptId) := by
    intro a ha
    rw [hatts] at ha
    obtain ⟨q, hq, rfl⟩ := mem_updated.mp ha
    by_cases hqr : q.attemptId = r.attemptId
    · have hqeq : q = r := eq_of_key s.externalCallAttempts.sound.1 hq hr hqr
      simp [hqeq]
    · exact .inr ⟨by simpa [hqr] using hq, by simpa [hqr] using hqr⟩
  have hforth : ∀ a ∈ s.externalCallAttempts.rows, a.attemptId ≠ r.attemptId →
      a ∈ t.externalCallAttempts.rows := by
    intro a ha hne
    rw [hatts]
    exact mem_updated.mpr ⟨a, ha, by simp [hne]⟩
  have hcback : ∀ d ∈ t.externalCalls.rows, ∃ q ∈ s.externalCalls.rows, d.callId = q.callId ∧
      d.attemptCount = q.attemptCount ∧
      d = if q.callId = r.callId then callAfter now r.attemptId state q else q := by
    intro d hd
    rw [hcalls] at hd
    obtain ⟨q, hq, rfl⟩ := mem_updated.mp hd
    refine ⟨q, hq, ?_⟩
    by_cases hqr : q.callId = r.callId <;> simp [hqr]
  have howned : ∀ a ∈ t.externalCallAttempts.rows, ∃ c ∈ t.externalCalls.rows, c.callId = a.callId := by
    intro a ha
    have hq : ∃ q ∈ s.externalCalls.rows, q.callId = a.callId := by
      rcases hback a ha with rfl | ⟨ha, -⟩
      · simpa using hs.owned r hr
      · exact hs.owned a ha
    obtain ⟨q, hq, hqa⟩ := hq
    refine ⟨_, by rw [hcalls]; exact mem_updated.mpr ⟨q, hq, rfl⟩, ?_⟩
    split
    · exact (callAfter_callId ..).trans hqa
    · exact hqa
  have hordinals : ∀ d ∈ t.externalCalls.rows,
      (attemptsOf t d.callId).map (·.attemptOrdinal) = List.range d.attemptCount := by
    intro d hd
    obtain ⟨q, hq, hdi, hcount, -⟩ := hcback d hd
    rw [ordinals_advanced hatts, hdi, hcount]
    exact hs.ordinals q hq
  have hone : ∀ d ∈ t.externalCalls.rows, (liveAttempts t d.callId).length ≤ 1 := by
    intro d hd
    obtain ⟨q, hq, hdi, -⟩ := hcback d hd
    rw [hdi]
    exact (live_advanced hr hlegal hatts q.callId).trans (hs.oneLive q hq)
  by_cases hcommit : state = .committed
  · subst hcommit
    refine ⟨howned, hordinals, hone, ?_, ?_, ?_⟩
    · intro d hd
      obtain ⟨q, hq, -, -, hdq⟩ := hcback d hd
      by_cases hqr : q.callId = r.callId
      · rw [hdq, if_pos hqr]
        simp [callAfter]
      · rw [hdq, if_neg hqr]
        exact hs.bought q hq
    · intro d hd j hj
      obtain ⟨q, hq, hdi, -, hdq⟩ := hcback d hd
      by_cases hqr : q.callId = r.callId
      · rw [hdq, if_pos hqr, (callAfter_committed ..).2] at hj
        cases hj
        exact ⟨_, hadv, by simp, by rw [hdi, hqr]; simp, by simp⟩
      · rw [hdq, if_neg hqr] at hj
        obtain ⟨a, ha, haj, hac, has⟩ := hs.names q hq j hj
        have hne : a.attemptId ≠ r.attemptId := by
          intro he
          rw [eq_of_key s.externalCallAttempts.sound.1 ha hr he] at hac
          exact hqr hac.symm
        exact ⟨a, hforth a ha hne, haj, hac.trans hdi.symm, has⟩
    · intro a ha hst d hd hda
      obtain ⟨q, hq, hdi, -, hdq⟩ := hcback d hd
      by_cases hqr : q.callId = r.callId
      · have hcall : a.callId = (advancedRow .committed cols r).callId := by
          rw [advancedRow_callId, ← hqr, ← hdi, hda]
        have har := committed_unique ha hadv hst (by simp) hcall
        rw [hdq, if_pos hqr, (callAfter_committed ..).2, har]
        simp
      · rcases hback a ha with rfl | ⟨ha, -⟩
        · rw [advancedRow_callId] at hda
          exact absurd (hdi.symm.trans hda) hqr
        · rw [hdq, if_neg hqr]
          exact hs.named a ha hst q hq (hdi.symm.trans hda)
  · have hsame : ∀ d ∈ t.externalCalls.rows, ∃ q ∈ s.externalCalls.rows, d.callId = q.callId ∧
        d.state = q.state ∧ d.committedAttemptId = q.committedAttemptId := by
      intro d hd
      obtain ⟨q, hq, hdi, -, hdq⟩ := hcback d hd
      refine ⟨q, hq, hdi, ?_⟩
      by_cases hqr : q.callId = r.callId
      · rw [hdq, if_pos hqr]
        exact callAfter_of_ne now r.attemptId hcommit q
      · rw [hdq, if_neg hqr]
        exact ⟨rfl, rfl⟩
    refine ⟨howned, hordinals, hone, ?_, ?_, ?_⟩
    · intro d hd
      obtain ⟨q, hq, -, hst, hcm⟩ := hsame d hd
      rw [hst, hcm]
      exact hs.bought q hq
    · intro d hd j hj
      obtain ⟨q, hq, hdi, -, hcm⟩ := hsame d hd
      obtain ⟨a, ha, haj, hac, has⟩ := hs.names q hq j (hcm ▸ hj)
      have hne : a.attemptId ≠ r.attemptId := by
        intro he
        rw [← eq_of_key s.externalCallAttempts.sound.1 ha hr he, has] at hlegal
        cases hlegal
      exact ⟨a, hforth a ha hne, haj, hac.trans hdi.symm, has⟩
    · intro a ha hst d hd hda
      obtain ⟨q, hq, hdi, -, hcm⟩ := hsame d hd
      rcases hback a ha with rfl | ⟨ha, -⟩
      · exact absurd (by simpa using hst) hcommit
      · rw [hcm]
        exact hs.named a ha hst q hq (hdi.symm.trans hda)

theorem CallsSound.effect {l : ExternalCallLedger} {s t : Database} {call : Call} (hs : CallsSound s)
    (hi : Issued s call) (he : Effect l s call t) : CallsSound t := by
  cases he with
  | idle hcalls hatts _ => exact hs.of_same hcalls hatts
  | opened row _ hnew hcalls hatts _ => exact hs.opened hnew hcalls hatts
  | begun c hc _ hlive hcalls hatts _ => exact hs.begun hc hlive rfl rfl rfl hcalls hatts
  | moved h hhandle r hr hid state cols hlegal hatts hcalls _ =>
    rw [← hid] at hatts hcalls
    rw [hi.callId hhandle hr hid] at hcalls
    exact hs.advanced hr hlegal hatts hcalls
  | closed callId hcalls hatts _ =>
    refine hs.calls_updated hatts hcalls (fun _ => rfl) (fun _ => rfl) (fun _ => rfl) fun c hp => ?_
    have hopen : c.state = .opened := (of_decide_eq_true hp).2
    simp [hopen]

/-- No attempt of an open call has committed. -/
theorem CallsSound.unbought {s : Database} (hs : CallsSound s) {c : ExternalCallRow}
    (hc : c ∈ s.externalCalls.rows) (hopen : c.state = .opened) :
    ∀ q ∈ s.externalCallAttempts.rows, q.callId = c.callId → q.state ≠ .committed := by
  intro q hq hqc hst
  have hnamed := hs.named q hq hst c hc hqc.symm
  have hbought := (hs.bought c hc).mpr (by simp [hnamed])
  rw [hopen] at hbought
  cases hbought

/-! ## Every call is safe -/

/-- At most one attempt of the call has committed and at most one is in flight, its attempts are
    numbered from zero, and it is `COMMITTED` when it names its committed attempt. -/
structure CallSafe (s : Database) (c : ExternalCallRow) : Prop where
  oneCommitted : ((attemptsOf s c.callId).filter fun a => a.state = .committed).length ≤ 1
  oneLive : (liveAttempts s c.callId).length ≤ 1
  contiguous : ∃ n, (attemptsOf s c.callId).map (·.attemptOrdinal) = List.range n
  bought : c.state = .committed ↔
    ∃ a ∈ attemptsOf s c.callId, c.committedAttemptId = some a.attemptId ∧ a.state = .committed

theorem mem_attemptsOf {s : Database} {c : String} {a : ExternalAttemptRow} :
    a ∈ attemptsOf s c ↔ a ∈ s.externalCallAttempts.rows ∧ a.callId = c := by
  simp [attemptsOf]

/-- The committed attempts of one call, by the partial index. -/
theorem committed_le_one (s : Database) (c : String) :
    ((attemptsOf s c).filter fun a => a.state = .committed).length ≤ 1 := by
  have h := List.nodup_iff_count_le_one.mp s.externalCallAttempts.sound.2.2 c
  rw [List.count, List.countP_map, List.countP_filter] at h
  unfold attemptsOf
  rw [List.filter_filter, ← List.countP_eq_length_filter]
  refine le_trans (le_of_eq (List.countP_congr fun a _ => ?_)) h
  simp [and_comm]

theorem CallsSound.callSafe {s : Database} (hs : CallsSound s) {c : ExternalCallRow}
    (hc : c ∈ s.externalCalls.rows) : CallSafe s c where
  oneCommitted := committed_le_one s c.callId
  oneLive := hs.oneLive c hc
  contiguous := ⟨_, hs.ordinals c hc⟩
  bought := by
    rw [hs.bought c hc]
    constructor
    · intro hne
      obtain ⟨i, hi⟩ := Option.ne_none_iff_exists'.mp hne
      obtain ⟨a, ha, rfl, hac, hst⟩ := hs.names c hc i hi
      exact ⟨a, mem_attemptsOf.mpr ⟨ha, hac⟩, hi, hst⟩
    · rintro ⟨a, -, hi, -⟩ hnone
      rw [hnone] at hi
      cases hi

/-! ## Closed calls stay closed -/

/-- The calls that are committed or abandoned in `s` are in the same state in `t`. -/
def KeepsClosed (s t : Database) : Prop :=
  ∀ c ∈ s.externalCalls.rows, c.state ∈ callTerminal →
    ∃ d ∈ t.externalCalls.rows, d.callId = c.callId ∧ d.state = c.state

instance (s t : Database) : Decidable (KeepsClosed s t) := inferInstanceAs (Decidable (∀ _ ∈ _, _))

theorem keepsClosed_refl (s : Database) : KeepsClosed s s := fun c hc _ => ⟨c, hc, rfl, rfl⟩

theorem KeepsClosed.trans {s t u : Database} (h : KeepsClosed s t) (h' : KeepsClosed t u) :
    KeepsClosed s u := by
  intro c hc hterm
  obtain ⟨d, hd, hdc, hst⟩ := h c hc hterm
  obtain ⟨e, he, hed, hst'⟩ := h' d hd (hst ▸ hterm)
  exact ⟨e, he, hed.trans hdc, hst'.trans hst⟩

/-- The call commits no validated attempt of an abandoned call. -/
def CommitsOpen (s : Database) (call : Call) : Prop :=
  match call.op with
  | .commit h _ _ => ∀ a ∈ s.externalCallAttempts.rows, a.attemptId = h.attemptId → a.state = .validated →
      ∀ c ∈ s.externalCalls.rows, c.callId = a.callId → c.state ≠ .abandoned
  | _ => True

instance (s : Database) : ∀ call, Decidable (CommitsOpen s call)
  | ⟨_, _, .commit ..⟩ => inferInstanceAs (Decidable (∀ _ ∈ _, _))
  | ⟨_, _, .ensureAccount ..⟩ | ⟨_, _, .openCall ..⟩ | ⟨_, _, .beginAttempt ..⟩ | ⟨_, _, .reserve ..⟩
  | ⟨_, _, .markSent ..⟩ | ⟨_, _, .storeResponse ..⟩ | ⟨_, _, .validate ..⟩ | ⟨_, _, .failBeforeSend ..⟩
  | ⟨_, _, .failUnknown ..⟩ | ⟨_, _, .failAfterResponse ..⟩ | ⟨_, _, .closeCall ..⟩ => .isTrue trivial

theorem keepsClosed_updated {s t : Database} {p : ExternalCallRow → Bool}
    {f : ExternalCallRow → ExternalCallRow} (h : t.externalCalls.rows = updated p f s.externalCalls.rows)
    (hid : ∀ c, (f c).callId = c.callId)
    (hstate : ∀ c ∈ s.externalCalls.rows, p c = true → c.state ∈ callTerminal → (f c).state = c.state) :
    KeepsClosed s t := by
  intro c hc hterm
  refine ⟨_, by rw [h]; exact mem_updated.mpr ⟨c, hc, rfl⟩, ?_, ?_⟩
  · split
    · exact hid c
    · rfl
  · split
    · rename_i hp
      exact hstate c hc hp hterm
    · rfl

theorem commit_only {op : Op} {h : AttemptHandle} {group : Option ReservationGroup} {mode : Mode}
    (hop : op.ending = some (h, .committed, group, mode)) : ∃ g actuals, op = .commit h g actuals := by
  cases op <;> simp [Op.ending] at hop
  rename_i h' g actuals
  exact ⟨g, actuals, by rw [hop.1]⟩

theorem legalAttempt_committed {a : CallAttemptState} (h : .committed ∈ legalAttempt a) :
    a = .validated := by
  cases a <;> simp [legalAttempt] at h ⊢

theorem keepsClosed_effect {l : ExternalCallLedger} {s t : Database} {call : Call} (hi : Issued s call)
    (hok : CommitsOpen s call) (he : Effect l s call t) : KeepsClosed s t := by
  cases he with
  | idle hcalls _ _ =>
    intro c hc _
    exact ⟨c, by rw [hcalls]; exact hc, rfl, rfl⟩
  | opened row _ _ hcalls _ _ =>
    intro c hc _
    exact ⟨c, by rw [hcalls]; exact List.mem_append_left _ hc, rfl, rfl⟩
  | begun c _ _ _ hcalls _ _ => exact keepsClosed_updated hcalls (fun _ => rfl) fun _ _ _ _ => rfl
  | closed callId hcalls _ _ =>
    refine keepsClosed_updated hcalls (fun _ => rfl) fun c _ hp hterm => ?_
    have hopen : c.state = .opened := (of_decide_eq_true hp).2
    simp [hopen, callTerminal] at hterm
  | moved h hhandle r hr hid state cols hlegal _ hcalls hmoney =>
    refine keepsClosed_updated hcalls (fun _ => callAfter_callId ..) fun c hc hp hterm => ?_
    by_cases hcommit : state = .committed
    · subst hcommit
      cases hmoney with
      | kept hstate _ => simp [attemptSentStates] at hstate
      | reserved hstate => cases hstate
      | refused hstate => cases hstate
      | ended group mode hop _ =>
        obtain ⟨g, actuals, hcom⟩ := commit_only hop
        have hnot : c.state ≠ .abandoned := by
          unfold CommitsOpen at hok
          rw [hcom] at hok
          refine hok r hr hid (legalAttempt_committed hlegal) c hc ?_
          rw [← hi.callId hhandle hr hid]
          exact of_decide_eq_true hp
        have hst : c.state = .committed := by
          simp only [callTerminal, List.mem_cons, List.not_mem_nil, or_false] at hterm
          exact hterm.resolve_right hnot
        rw [(callAfter_committed ..).1, hst]
    · exact (callAfter_of_ne call.clock h.attemptId hcommit c).1

/-- In every run on issued handles every call is safe in every state; and when no validated
    attempt of an abandoned call is committed, closed calls stay as they are for the rest of the run. -/
theorem externalCalls_safe (l : ExternalCallLedger) (before after : List Call)
    (hissued : Allowed (step l) Issued .empty (before ++ after)) :
    (∀ c ∈ (run (step l) .empty before).externalCalls.rows, CallSafe (run (step l) .empty before) c) ∧
    (Allowed (step l) CommitsOpen .empty (before ++ after) →
      KeepsClosed (run (step l) .empty before) (run (step l) .empty (before ++ after))) := by
  constructor
  · have hsound := invariant (fun s call hs hi => CallsSound.effect hs hi (step_effect l s call))
      callsSound_empty ((allowed_append _ _ _).mp hissued).1
    exact fun c hc => hsound.callSafe hc
  · intro hopen
    rw [run_append]
    have hok := ((allowed_append _ _ _).mp hissued).2.and ((allowed_append _ _ _).mp hopen).2
    refine relation (I := fun _ => True) keepsClosed_refl KeepsClosed.trans (fun _ _ _ _ => trivial)
      ?_ trivial hok
    exact fun s call _ hok => keepsClosed_effect hok.1 hok.2 (step_effect l s call)

/-- A ledger and one attempt for runs on fixed inputs. -/
def sampleLedger : ExternalCallLedger := ⟨Budget.sampleBudget, fun text => .ok ⟨text, text.length, text.length⟩⟩

def sampleAttempt : AttemptHandle := ⟨"Cexa:search:-:q1", "ACexa:search:-:q1#0", 0⟩

def sampleGroup : ReservationGroup := ⟨"ACexa:search:-:q1#0", Budget.amountsOf "usd" 1⟩

/-- One attempt dispatched, answered and validated. -/
def validatedCall : List Call :=
  [{ clock := 0, op := .ensureAccount "usd" 10 }, { clock := 1, op := .openCall "exa" "search" "q1" none },
    { clock := 2, op := .beginAttempt "Cexa:search:-:q1" },
    { clock := 3, op := .reserve sampleAttempt (Budget.amountsOf "usd" 1) none },
    { clock := 4, op := .markSent sampleAttempt "request" none none },
    { clock := 5, op := .storeResponse sampleAttempt "response" {} }, { clock := 6, op := .validate sampleAttempt }]

def commitSample : Call := { clock := 8, op := .commit sampleAttempt sampleGroup (Budget.amountsOf "usd" 1) }

def closeSample : Call := { clock := 7, op := .closeCall "Cexa:search:-:q1" "retries exhausted" }

theorem externalCalls_safe_bought :
    (∀ c ∈ (run (step sampleLedger) .empty (validatedCall ++ [commitSample])).externalCalls.rows,
      CallSafe (run (step sampleLedger) .empty (validatedCall ++ [commitSample])) c) ∧
    KeepsClosed (run (step sampleLedger) .empty (validatedCall ++ [commitSample]))
      (run (step sampleLedger) .empty (validatedCall ++ [commitSample] ++ [closeSample])) :=
  have h := externalCalls_safe sampleLedger (validatedCall ++ [commitSample]) [closeSample] (by decide +kernel)
  ⟨h.1, h.2 (by decide +kernel)⟩

theorem commit_reopens_an_abandoned_call :
    ¬ ∀ (l : ExternalCallLedger) (before after : List Call),
      Allowed (step l) Issued .empty (before ++ after) →
      KeepsClosed (run (step l) .empty before) (run (step l) .empty (before ++ after)) := by
  intro h
  have hrun := h sampleLedger (validatedCall ++ [closeSample]) [commitSample] (by decide +kernel)
  revert hrun
  decide +kernel

end Shapeflow.ExternalCalls
