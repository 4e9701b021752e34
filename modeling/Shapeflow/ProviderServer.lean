import Mathlib.Data.List.Infix
import Shapeflow.BudgetSteps

set_option autoImplicit false

/-!
# The provider server: its breaker

A provider that fails too often in a row, or that refused the credential, is
not asked again. The count lives in the process, the refusal in the ledger's
incidents, so that it outlives a restart.
-/
namespace Shapeflow.ProviderServer
open Script Database

/-- A request the provider refuses, with the HTTP status it answers. -/
structure ProviderError where
  status : ℕ
  message : String
deriving DecidableEq, Repr

/-- The upstreams that take a credential. -/
inductive Provider
  | exa
  | tavily
  | deepseek
deriving DecidableEq, Repr

def Provider.name : Provider → String
  | .exa => "exa"
  | .tavily => "tavily"
  | .deepseek => "deepseek"

/-- `latest_incident`: the most recent incident of one kind, whoever recorded it. -/
def latestIncident (s : Database) (severity kind : String) : Option IncidentRow :=
  (s.incidents.rows.filter fun i => i.severity = severity ∧ i.kind = kind).getLast?

def breakerIncidents : List String := ["provider_unauthorized", "provider_consecutive_failures"]

/-- `provider in detail`, the substring test. -/
def Names (p : Provider) (detail : String) : Prop := p.name.toList <:+: detail.toList

instance (p : Provider) (detail : String) : Decidable (Names p detail) :=
  inferInstanceAs (Decidable (_ <:+: _))

def failedInARow (p : Provider) (count : ℕ) : String := s!"{p.name} failed {count} times in a row"

/-- `limit and count >= limit`: no limit at all when it is zero. -/
def limitReached (limit : ℤ) (count : ℕ) : Bool := limit ≠ 0 ∧ limit ≤ count

/-- The limb of `require_breaker_closed` on this process's count. -/
def countRefusal (limit : ℤ) (p : Provider) (count : ℕ) : Option ProviderError :=
  if limitReached limit count then
    some ⟨503, failedInARow p count ++
      "; the circuit breaker is open and no further call will be dispatched"⟩
  else none

/-- The limb on the durable incidents of one kind. -/
def incidentRefusal (s : Database) (p : Provider) (kind : String) : Option ProviderError :=
  match latestIncident s "FATAL" kind with
  | none => none
  | some incident =>
    if Names p incident.detail then
      some ⟨503, s!"{p.name} is fenced by a durable {kind} incident ({incident.detail}); refusing to " ++
        "dispatch. Replace the credential and clear the incident before resuming."⟩
    else none

def requireBreakerClosed (limit : ℤ) (s : Database) (p : Provider) (count : ℕ) : Except ProviderError Unit :=
  match countRefusal limit p count with
  | some e => .error e
  | none =>
    match breakerIncidents.findSome? (incidentRefusal s p) with
    | some e => .error e
    | none => .ok ()

def unauthorized : List ℕ := [401, 403]

def rejectionDetail (p : Provider) (status : ℕ) : String :=
  s!"{p.name} rejected the credential with HTTP {status}"

/-- `_note_upstream_failure`, once it has counted the failure. -/
def noteUpstreamFailure (limit : ℤ) (now : ℚ) (p : Provider) (status count : ℕ) :
    Db (Option ProviderError) :=
  if status ∈ unauthorized then do
    WorkLedger.recordIncident now "FATAL" "provider_unauthorized" (rejectionDetail p status)
    pure (some ⟨503, s!"{p.name} rejected the credential (HTTP {status}); refusing further calls until it is replaced"⟩)
  else if limitReached limit count then do
    WorkLedger.recordIncident now "FATAL" "provider_consecutive_failures"
      (failedInARow p count ++ s!" (limit {limit})")
    pure (some ⟨503, failedInARow p count ++ "; the circuit breaker is open"⟩)
  else pure none

/-! ## What the incidents say -/

theorem names_rejection (p : Provider) (status : ℕ) (suffix : String) :
    Names p (rejectionDetail p status ++ suffix) := by
  unfold Names rejectionDetail
  refine List.IsPrefix.isInfix ?_
  cases p <;> simp [Provider.name, ToString.toString]

theorem latestIncident_append (s : Database) (row : IncidentRow) (severity kind : String) :
    latestIncident { s with incidents := ⟨s.incidents.rows ++ [row], trivial⟩ } severity kind =
      if row.severity = severity ∧ row.kind = kind then some row else latestIncident s severity kind := by
  unfold latestIncident
  rw [List.filter_append]
  split
  · rename_i h
    simp [h]
  · rename_i h
    simp [h]

/-- The store once an incident is recorded. -/
def recorded (s : Database) (now : ℚ) (severity kind detail : String) (workKey : Option String) : Database :=
  { s with incidents := ⟨s.incidents.rows ++ [⟨now, severity, kind, detail, workKey⟩], trivial⟩ }

theorem recordIncident_after (now : ℚ) (severity kind detail : String) (workKey : Option String)
    (s : Database) : (WorkLedger.recordIncident now severity kind detail workKey).after s =
      recorded s now severity kind detail workKey :=
  after_of_ok (Budget.recordIncident_run now severity kind detail workKey s)

theorem noteUpstreamFailure_after (limit : ℤ) (now : ℚ) (p : Provider) (status count : ℕ) (s : Database) :
    (noteUpstreamFailure limit now p status count).after s =
      if status ∈ unauthorized then
        recorded s now "FATAL" "provider_unauthorized" (rejectionDetail p status) none
      else if limitReached limit count then
        recorded s now "FATAL" "provider_consecutive_failures" (failedInARow p count ++ s!" (limit {limit})") none
      else s := by
  unfold noteUpstreamFailure
  split
  · exact after_of_ok (bind_of_ok (Budget.recordIncident_run now _ _ _ none s))
  · split
    · exact after_of_ok (bind_of_ok (Budget.recordIncident_run now _ _ _ none s))
    · rfl

end Shapeflow.ProviderServer
