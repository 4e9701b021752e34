import Shapeflow.CanonicalJson
import Shapeflow.PhaseMachine
import Shapeflow.Run

set_option autoImplicit false

/-!
# The phase store

Phase state as rows of the ledger, one for each execution binding and phase.
`begin` asks the machine; `complete` and `fail` do not.
-/
namespace Shapeflow.Phases
open Py Canonical

inductive PhaseState
  | running
  | complete
  | failed
deriving DecidableEq, Repr

/-- A row of `campaign_phases_v2`; `detail` is the value that `detail_json` is the text of. -/
structure PhaseRow where
  state : PhaseState
  detail : Value := .dict []
  detailSha : String := ""
  startedAt : ℚ
  endedAt : Option ℚ := none

structure PhaseTransition where
  protocolSha : String
  fromPhase : Phase
  toPhase : Phase
  atTime : ℚ
  reason : String

/-- The rows of every execution binding, and the transitions in the order they were written. -/
structure PhaseTables where
  phases : Dict (String × Phase) PhaseRow
  transitions : List PhaseTransition

def PhaseTables.empty : PhaseTables := ⟨.empty, []⟩

inductive PhaseError
  | illegalPhaseTransition (current phase : Phase)
  | completedWithOtherEvidence (phase : Phase) (recorded digest : String)
  | canonical (e : CanonicalFailure)

structure PhaseStore where
  floats : FloatText
  sha256Hex : ByteArray → String

section
variable (store : PhaseStore) (protocolSha : String)

def record (t : PhaseTables) (phase : Phase) : Option PhaseRow := t.phases.get? (protocolSha, phase)

def isComplete (t : PhaseTables) (phase : Phase) : Bool :=
  (record protocolSha t phase).any fun row => row.state = .complete

/-- The furthest phase of the spine that completed, or `NEW`. -/
def current (t : PhaseTables) : Phase :=
  order.foldl (fun latest phase => if isComplete protocolSha t phase then phase else latest) .new

def writeRow (t : PhaseTables) (phase : Phase) (row : PhaseRow) : PhaseTables :=
  { t with phases := t.phases.set (protocolSha, phase) row }

/-- `ON CONFLICT(protocol_sha, phase) DO UPDATE` -/
def begunRow (now : ℚ) : Option PhaseRow → PhaseRow
  | none => { state := .running, startedAt := now }
  | some row => { row with state := .running, startedAt := now }

def completedRow (now : ℚ) (detail : Value) (digest : String) : Option PhaseRow → PhaseRow
  | none => { state := .complete, detail, detailSha := digest, startedAt := now, endedAt := some now }
  | some row => { row with state := .complete, detail, detailSha := digest, endedAt := some now }

def failedRow (now : ℚ) (reason : PyStr) : Option PhaseRow → PhaseRow
  | none => { state := .failed, detail := .dict [(.str (pyStr "reason"), .str reason)], startedAt := now,
              endedAt := some now }
  | some row => { row with state := .failed, detail := .dict [(.str (pyStr "reason"), .str reason)],
                           endedAt := some now }

def begin (t : PhaseTables) (phase : Phase) (reason : String) (now : ℚ) : Except PhaseError PhaseTables :=
  if isComplete protocolSha t phase then .ok t
  else if phase ≠ current protocolSha t ∧ ¬ canTransition (current protocolSha t) phase then
    .error (.illegalPhaseTransition (current protocolSha t) phase)
  else
    let t' := writeRow protocolSha t phase (begunRow now (record protocolSha t phase))
    .ok { t' with transitions := t'.transitions ++
      [⟨protocolSha, current protocolSha t, phase, now, if reason = "" then "begin" else reason⟩] }

def complete (t : PhaseTables) (phase : Phase) (detail : Value) (now : ℚ) : Except PhaseError (String × PhaseTables) :=
  match canonicalJson store.floats detail with
  | .error e => .error (.canonical e)
  | .ok raw =>
    let digest := store.sha256Hex raw
    match record protocolSha t phase with
    | none => .ok (digest, writeRow protocolSha t phase (completedRow now detail digest none))
    | some row =>
      if row.state = .complete then
        if row.detailSha ≠ digest then .error (.completedWithOtherEvidence phase row.detailSha digest)
        else .ok (digest, t)
      else .ok (digest, writeRow protocolSha t phase (completedRow now detail digest (some row)))

def fail (t : PhaseTables) (phase : Phase) (reason : PyStr) (now : ℚ) : PhaseTables :=
  writeRow protocolSha t phase (failedRow now reason (record protocolSha t phase))

end

/-! ## Calls in any order -/

/-- A call of the store of one execution binding. -/
inductive Op
  | begin (protocolSha : String) (phase : Phase) (reason : String) (now : ℚ)
  | complete (protocolSha : String) (phase : Phase) (detail : Value) (now : ℚ)
  | fail (protocolSha : String) (phase : Phase) (reason : PyStr) (now : ℚ)

/-- A call that raises leaves the tables as they were. -/
def step (store : PhaseStore) (t : PhaseTables) : Op → PhaseTables
  | .begin sha phase reason now => (begin sha t phase reason now).toOption.getD t
  | .complete sha phase detail now => ((complete store sha t phase detail now).toOption.map Prod.snd).getD t
  | .fail sha phase reason now => fail sha t phase reason now

def stateOf (t : PhaseTables) (sha : String) (p : Phase) : Option PhaseState := (record sha t p).map (·.state)

/-- The phase is COMPLETE with this digest. -/
def CompleteWith (t : PhaseTables) (sha : String) (p : Phase) (digest : String) : Prop :=
  ∃ row, record sha t p = some row ∧ row.state = .complete ∧ row.detailSha = digest

theorem isComplete_iff {t : PhaseTables} {sha : String} {p : Phase} :
    isComplete sha t p = true ↔ stateOf t sha p = some .complete := by
  unfold isComplete stateOf
  cases record sha t p <;> simp

theorem record_writeRow (t : PhaseTables) (sha sha' : String) (p p' : Phase) (row : PhaseRow) :
    record sha' (writeRow sha t p row) p' = if sha' = sha ∧ p' = p then some row else record sha' t p' := by
  unfold record writeRow
  simp only [Dict.get?_set, Prod.mk.injEq]

/-- What a call does: nothing, or one row of the phase it names. -/
theorem step_cases (store : PhaseStore) (t : PhaseTables) (op : Op) :
    step store t op = t ∨
    (∃ sha p reason now, op = .begin sha p reason now ∧ isComplete sha t p = false ∧
      (p = current sha t ∨ canTransition (current sha t) p) ∧
      ∀ sha' p', record sha' (step store t op) p' =
        if sha' = sha ∧ p' = p then some (begunRow now (record sha t p)) else record sha' t p') ∨
    (∃ sha p detail now raw, op = .complete sha p detail now ∧ canonicalJson store.floats detail = .ok raw ∧
      isComplete sha t p = false ∧
      ∀ sha' p', record sha' (step store t op) p' = if sha' = sha ∧ p' = p then
        some (completedRow now detail (store.sha256Hex raw) (record sha t p)) else record sha' t p') ∨
    (∃ sha p reason now, op = .fail sha p reason now ∧
      ∀ sha' p', record sha' (step store t op) p' =
        if sha' = sha ∧ p' = p then some (failedRow now reason (record sha t p)) else record sha' t p') := by
  cases op with
  | begin sha p reason now =>
    by_cases hdone : isComplete sha t p
    · left
      simp only [step, begin, hdone, if_true]
      rfl
    · by_cases hillegal : p ≠ current sha t ∧ ¬ canTransition (current sha t) p
      · left
        simp only [step, begin, if_neg hdone, if_pos hillegal]
        rfl
      · right; left
        refine ⟨sha, p, reason, now, rfl, by simpa using hdone, by tauto, fun sha' p' => ?_⟩
        simp only [step, begin, if_neg hdone, if_neg hillegal]
        exact record_writeRow t sha sha' p p' _
  | complete sha p detail now =>
    cases hraw : canonicalJson store.floats detail with
    | error e =>
      left
      simp only [step, complete, hraw]
      rfl
    | ok raw =>
      cases hrow : record sha t p with
      | none =>
        right; right; left
        refine ⟨sha, p, detail, now, raw, rfl, hraw, by simp [isComplete, hrow], fun sha' p' => ?_⟩
        simp only [step, complete, hraw, hrow]
        exact record_writeRow t sha sha' p p' _
      | some row =>
        by_cases hstate : row.state = .complete
        · left
          simp only [step, complete, hraw, hrow, if_pos hstate]
          split <;> rfl
        · right; right; left
          refine ⟨sha, p, detail, now, raw, rfl, hraw, by simp [isComplete, hrow, hstate], fun sha' p' => ?_⟩
          simp only [step, complete, hraw, hrow, if_neg hstate]
          exact record_writeRow t sha sha' p p' _
  | fail sha p reason now =>
    right; right; right
    exact ⟨sha, p, reason, now, rfl, fun sha' p' => record_writeRow t sha sha' p p' _⟩

end Shapeflow.Phases
