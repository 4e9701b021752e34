import Mathlib.Data.List.Basic

set_option autoImplicit false

/-!
# The phases of a campaign

The legal edges between phases. Failures are reachable from every phase that is
not terminal; a terminal phase leads nowhere, but that a report may conclude a no-go.
-/
namespace Shapeflow.Phases

inductive Phase
  | new
  | doctorPassed
  | acquisitionComplete
  | snapshotsFrozen
  | p0ParityPassed
  | gpuSmokePassed
  | screenRunning
  | screenComplete
  | miniIttRunning
  | miniIttComplete
  | policyFrozen
  | holdoutRunning
  | holdoutComplete
  | liveValidityOptional
  | characterizeNoGoRunning
  | characterizeNoGoComplete
  | reportComplete
  | blocked
  | completeNoGo
  | budgetExhausted
  | abortedSafely
deriving DecidableEq, Repr

def terminalPhases : List Phase := [.reportComplete, .blocked, .completeNoGo, .budgetExhausted, .abortedSafely]

/-- `_ANYTIME_FAILURES` -/
def anytimeFailures : List Phase := [.blocked, .budgetExhausted, .abortedSafely]

/-- `_LEGAL` -/
def legal : Phase → List Phase
  | .new => [.doctorPassed]
  | .doctorPassed => [.acquisitionComplete]
  | .acquisitionComplete => [.snapshotsFrozen]
  | .snapshotsFrozen => [.p0ParityPassed]
  | .p0ParityPassed => [.gpuSmokePassed]
  | .gpuSmokePassed => [.screenRunning]
  | .screenRunning => [.screenComplete]
  | .screenComplete => [.miniIttRunning, .characterizeNoGoRunning]
  | .miniIttRunning => [.miniIttComplete]
  | .miniIttComplete => [.policyFrozen, .characterizeNoGoRunning]
  | .policyFrozen => [.holdoutRunning]
  | .holdoutRunning => [.holdoutComplete]
  | .holdoutComplete => [.liveValidityOptional, .reportComplete]
  | .liveValidityOptional => [.reportComplete]
  | .characterizeNoGoRunning => [.characterizeNoGoComplete]
  | .characterizeNoGoComplete => [.reportComplete]
  | .reportComplete => [.completeNoGo]
  | .blocked | .completeNoGo | .budgetExhausted | .abortedSafely => []

def nextPhases (phase : Phase) : List Phase :=
  if phase ∈ terminalPhases ∧ phase ≠ .reportComplete then []
  else if phase ∈ terminalPhases then legal phase
  else legal phase ++ anytimeFailures

def canTransition (frm target : Phase) : Prop := target ∈ nextPhases frm

instance (frm target : Phase) : Decidable (canTransition frm target) := inferInstanceAs (Decidable (_ ∈ _))

/-- A path of the machine: every phase is reached from the one before it by a legal edge. -/
def LegalPath : Phase → List Phase → Prop
  | _, [] => True
  | p, q :: path => canTransition p q ∧ LegalPath q path

/-! ## The linear spine -/

/-- `_ORDER` -/
def order : List Phase :=
  [.new, .doctorPassed, .acquisitionComplete, .snapshotsFrozen, .p0ParityPassed, .gpuSmokePassed,
    .screenRunning, .screenComplete, .miniIttRunning, .miniIttComplete, .policyFrozen, .holdoutRunning,
    .holdoutComplete, .reportComplete]

def every : List Phase := order ++
  [.liveValidityOptional, .characterizeNoGoRunning, .characterizeNoGoComplete, .blocked, .completeNoGo,
    .budgetExhausted, .abortedSafely]

theorem mem_every (p : Phase) : p ∈ every := by
  cases p <;> decide

theorem order_nodup : order.Nodup := by decide

/-- No edge leads to `NEW`, nor from a phase to itself. -/
theorem canTransition_ne {p q : Phase} (h : canTransition p q) : q ≠ .new ∧ q ≠ p := by
  have hall : ∀ p ∈ every, ∀ q ∈ nextPhases p, q ≠ .new ∧ q ≠ p := by decide
  exact hall p (mem_every p) q h

end Shapeflow.Phases
