import Shapeflow.Reconcile
import Shapeflow.Run

set_option autoImplicit false

/-!
# Inference call ids

Concurrent chat completions each draw a nonce and later open their call; the
service may die in between and starts again with as many nonces behind it as the
ledger has inference calls.
-/
namespace Shapeflow.InferenceCalls
open Script Database Session Run ExternalCalls

/-- What a chat completion that passed its checks puts into its call id. -/
structure Request where
  cell : String
  op : String
  bodyHash : String
  workKey : Option String
deriving DecidableEq

/-- An invocation between `_next_nonce` and `open_call`. -/
structure Drawn where
  request : Request
  nonce : ℕ
deriving DecidableEq

/-- The ledger, the service when there is one, and the ids handed out with their nonces. -/
structure Serving where
  ledger : Database
  ready : Bool
  nonceCounter : ℕ
  inFlight : List Drawn
  obtained : List (ℕ × String)

/-- A ledger no service has been started on yet. -/
def Serving.start (ledger : Database) : Serving := ⟨ledger, false, 0, [], []⟩

inductive Event
  | draw (request : Request)
  | openCall (i : ℕ) (clock : ℚ)
  | abandon (i : ℕ)
  | ledger (call : Call)
  | restart (clock : ℚ) (life : Option ℕ)

section
variable (l : ExternalCallLedger) (inferenceKey : (cell op bodyHash : String) → (nonce : ℕ) → String)

def callKeyOf (d : Drawn) : String :=
  inferenceKey d.request.cell d.request.op d.request.bodyHash d.nonce

/-- The id `open_call` derives for an invocation. -/
def callIdOf (d : Drawn) : String :=
  l.budget.ids.externalCall "vllm" d.request.op
    ((Budget.firstOf d.request.workKey (some "-")).getD "-") (callKeyOf inferenceKey d)

/-- Only chat completions open calls of the local engine. -/
def opensInference : Op → Bool
  | .openCall provider _ _ _ => provider = "vllm"
  | _ => false

def Serving.step (s : Serving) : Event → Serving
  | .draw request =>
    if s.ready then
      { s with nonceCounter := s.nonceCounter + 1
               inFlight := s.inFlight ++ [⟨request, s.nonceCounter + 1⟩] }
    else s
  | .openCall i clock =>
    match s.inFlight[i]? with
    | none => s
    | some d =>
      { s with
        ledger := ((ExternalCalls.openCall l clock "vllm" d.request.op (callKeyOf inferenceKey d)
          d.request.workKey).after ⟨s.ledger, none⟩).store
        inFlight := s.inFlight.eraseIdx i
        obtained := s.obtained ++ [(d.nonce, callIdOf l inferenceKey d)] }
  | .abandon i => { s with inFlight := s.inFlight.eraseIdx i }
  | .ledger call =>
    if opensInference call.op then s else { s with ledger := ExternalCalls.step l s.ledger call }
  | .restart clock life =>
    match reconcileOnStart l clock ⟨s.ledger, life⟩ with
    | (.ok out, t) =>
      { s with ledger := t.store, ready := true, nonceCounter := out.nonceCounter, inFlight := [] }
    | (.error _, t) => { s with ledger := t.store, ready := false, inFlight := [] }

/-- The inference calls the ledger has. -/
def inferenceCalls (s : Database) : ℕ := s.externalCalls.rows.countP fun r => r.provider = "vllm"

/-- A restart finds no call opened under a nonce above the number of inference calls. -/
def SeedCovers (s : Serving) : Event → Prop
  | .restart _ _ => ∀ e ∈ s.obtained, e.1 ≤ inferenceCalls s.ledger
  | _ => True

instance (s : Serving) : ∀ e, Decidable (SeedCovers s e)
  | .draw _ | .openCall _ _ | .abandon _ | .ledger _ => .isTrue trivial
  | .restart _ _ => inferInstanceAs (Decidable (∀ e ∈ s.obtained, e.1 ≤ inferenceCalls s.ledger))

/-- Calls opened under different nonces have different ids. -/
def NoncesSeparate : Prop :=
  ∀ d d' : Drawn, callIdOf l inferenceKey d = callIdOf l inferenceKey d' → d.nonce = d'.nonce

end

/-! ## The calls of the ledger -/

theorem countP_updated {p : ExternalCallRow → Bool} {f : ExternalCallRow → ExternalCallRow}
    (hf : ∀ r, (f r).provider = r.provider) (rows : List ExternalCallRow) :
    (Table.updated p f rows).countP (fun r => r.provider = "vllm") =
      rows.countP fun r => r.provider = "vllm" := by
  have hmap : (Table.updated p f rows).map (·.provider) = rows.map (·.provider) :=
    Table.map_updated _ fun r _ _ => hf r
  have hcount := congrArg (List.countP fun x : String => x = "vllm") hmap
  rw [List.countP_map, List.countP_map] at hcount
  exact hcount

theorem callAfter_provider (now : ℚ) (a : String) (state : CallAttemptState) (r : ExternalCallRow) :
    (callAfter now a state r).provider = r.provider := by
  unfold callAfter
  split
  · rfl
  · split <;> rfl

/-- No call leaves the ledger, and none changes its provider. -/
theorem inferenceCalls_effect {l : ExternalCallLedger} {s t : Database} {call : Call}
    (h : Effect l s call t) : inferenceCalls s ≤ inferenceCalls t := by
  unfold inferenceCalls
  cases h with
  | idle hcalls => rw [hcalls]
  | opened row _ _ hcalls =>
    rw [hcalls, List.countP_append]
    exact Nat.le_add_right _ _
  | begun c _ _ _ hcalls =>
    rw [hcalls, countP_updated]
    intro r
    rfl
  | moved h _ r _ _ state cols _ _ hcalls =>
    rw [hcalls]
    unfold callsAdvanced
    rw [countP_updated]
    exact callAfter_provider _ _ _
  | closed callId hcalls =>
    rw [hcalls, countP_updated]
    intro r
    rfl

theorem inferenceCalls_step (l : ExternalCallLedger) (s : Database) (call : Call) :
    inferenceCalls s ≤ inferenceCalls (ExternalCalls.step l s call) :=
  inferenceCalls_effect (step_effect l s call)

theorem reconcileAttempt_after (l : ExternalCallLedger) (now : ℚ) (attempt : AttemptHandle)
    (s : Session Database) :
    ∃ op, ((reconcileAttempt l now attempt).after s).store = ExternalCalls.step l s.store ⟨now, s.life, op⟩ := by
  have hdiscard : ∀ (x : Proc Unit) (b : Bool), (x >>= fun _ => pure b).after s = x.after s := by
    intro x b
    cases h : x s with
    | mk r t =>
      cases r with
      | ok a =>
        rw [after_bind_of_ok h, after_of_ok h]
        rfl
      | error e => rw [after_bind_of_error h, after_of_error h]
  by_cases hsent : attemptWasSent s.store attempt.attemptId = true
  · refine ⟨.failUnknown attempt (groupFor s.store attempt.attemptId) "provider_restart", ?_⟩
    have hrun : (reconcileAttempt l now attempt).after s = ((failUnknown l now attempt
        (groupFor s.store attempt.attemptId) "provider_restart" >>= fun _ => pure true : Proc Bool)).after s := by
      unfold after reconcileAttempt
      rw [getStore_bind, if_pos hsent]
    rw [hrun, hdiscard]
    rfl
  · refine ⟨.failBeforeSend attempt (groupFor s.store attempt.attemptId) "provider_restart", ?_⟩
    have hrun : (reconcileAttempt l now attempt).after s = ((failBeforeSend l now attempt
        (groupFor s.store attempt.attemptId) "provider_restart" >>= fun _ => pure false : Proc Bool)).after s := by
      unfold after reconcileAttempt
      rw [getStore_bind, if_neg hsent]
    rw [hrun, hdiscard]
    rfl

/-- A start that gets through seeds the counter with no fewer calls than it found. -/
theorem reconcileOnStart_seed {l : ExternalCallLedger} {now : ℚ} {s t : Session Database} {out : Reconciled}
    (h : reconcileOnStart l now s = (.ok out, t)) : inferenceCalls s.store ≤ out.nonceCounter := by
  unfold reconcileOnStart at h
  rw [getStore_bind] at h
  obtain ⟨kept, u, hloop, h⟩ := bind_ok.mp h
  have hkept : inferenceCalls s.store ≤ inferenceCalls u.store := by
    have hafter := after_forEach (f := reconcileAttempt l now)
      (P := fun u : Session Database => inferenceCalls s.store ≤ inferenceCalls u.store) ?_
      (allLiveAttempts s.store) (s := s) (Nat.le_refl _)
    · rw [after_of_ok hloop] at hafter
      exact hafter
    · intro attempt v hv
      obtain ⟨op, hop⟩ := reconcileAttempt_after l now attempt v
      rw [hop]
      exact hv.trans (inferenceCalls_step l v.store _)
  rw [getStore_bind] at h
  simp only [pure_run, Prod.mk.injEq, Except.ok.injEq] at h
  rw [← h.1]
  exact hkept

/-! ## Nonces -/

/-- Every nonce has been drawn once, the counter is past all of them, and every id handed out is
    that of an invocation with the nonce beside it. -/
structure Fresh (l : ExternalCallLedger) (inferenceKey : String → String → String → ℕ → String)
    (s : Serving) : Prop where
  distinct : (s.obtained.map (·.1) ++ s.inFlight.map (·.nonce)).Nodup
  behind : s.ready = true → ∀ n ∈ s.obtained.map (·.1) ++ s.inFlight.map (·.nonce), n ≤ s.nonceCounter
  derived : ∀ e ∈ s.obtained, ∃ d : Drawn, d.nonce = e.1 ∧ callIdOf l inferenceKey d = e.2

section
variable {l : ExternalCallLedger} {inferenceKey : String → String → String → ℕ → String} {s : Serving}

theorem Fresh.drawn (h : Fresh l inferenceKey s) (hready : s.ready = true) (request : Request) :
    Fresh l inferenceKey
      { s with nonceCounter := s.nonceCounter + 1
               inFlight := s.inFlight ++ [⟨request, s.nonceCounter + 1⟩] } := by
  have hbehind := h.behind hready
  constructor
  · change (s.obtained.map (·.1) ++ (s.inFlight ++ [_]).map Drawn.nonce).Nodup
    rw [List.map_append, ← List.append_assoc]
    apply List.Nodup.append h.distinct (List.nodup_singleton _)
    intro n hn hn'
    have hle := hbehind n hn
    have heq : n = s.nonceCounter + 1 := List.mem_singleton.mp hn'
    omega
  · intro _ n hn
    change n ∈ s.obtained.map (·.1) ++ (s.inFlight ++ [_]).map Drawn.nonce at hn
    rw [List.map_append, ← List.append_assoc] at hn
    change n ≤ s.nonceCounter + 1
    rcases List.mem_append.mp hn with hold | hnew
    · have hle := hbehind n hold
      omega
    · have heq : n = s.nonceCounter + 1 := List.mem_singleton.mp hnew
      omega
  · exact h.derived

theorem Fresh.dropped (h : Fresh l inferenceKey s) {inFlight : List Drawn}
    (hsub : inFlight.Sublist s.inFlight) : Fresh l inferenceKey { s with inFlight } := by
  have hlist : (s.obtained.map (·.1) ++ inFlight.map (·.nonce)).Sublist
      (s.obtained.map (·.1) ++ s.inFlight.map (·.nonce)) :=
    (List.Sublist.refl _).append (hsub.map _)
  constructor
  · exact h.distinct.sublist hlist
  · intro hready n hn
    exact h.behind hready n (hlist.subset hn)
  · exact h.derived

theorem Fresh.opened (h : Fresh l inferenceKey s) {i : ℕ} {d : Drawn} (hd : s.inFlight[i]? = some d)
    (ledger : Database) : Fresh l inferenceKey
      { s with ledger, inFlight := s.inFlight.eraseIdx i
               obtained := s.obtained ++ [(d.nonce, callIdOf l inferenceKey d)] } := by
  obtain ⟨hi, hget⟩ := List.getElem?_eq_some_iff.mp hd
  have hperm : (s.obtained.map (·.1) ++ s.inFlight.map (·.nonce)).Perm
      ((s.obtained ++ [(d.nonce, callIdOf l inferenceKey d)]).map (·.1) ++
        (s.inFlight.eraseIdx i).map (·.nonce)) := by
    rw [List.map_append, List.append_assoc]
    apply List.Perm.append_left
    have hsplit : (d :: s.inFlight.eraseIdx i).Perm s.inFlight := by
      rw [← hget]
      exact List.getElem_cons_eraseIdx_perm hi
    exact (hsplit.map (·.nonce)).symm
  constructor
  · exact hperm.nodup h.distinct
  · intro hready n hn
    exact h.behind hready n (hperm.mem_iff.mpr hn)
  · intro e he
    rcases List.mem_append.mp he with hold | hnew
    · exact h.derived e hold
    · rw [List.mem_singleton.mp hnew]
      exact ⟨d, rfl, rfl⟩

theorem Fresh.restarted (h : Fresh l inferenceKey s) {ledger : Database} {ready : Bool} {n : ℕ}
    (hseed : ready = true → ∀ e ∈ s.obtained, e.1 ≤ n) :
    Fresh l inferenceKey { s with ledger, ready, nonceCounter := n, inFlight := [] } := by
  constructor
  · exact (h.dropped (List.nil_sublist _)).distinct
  · intro hready m hm
    simp only [List.map_nil, List.append_nil, List.mem_map] at hm
    obtain ⟨e, he, hem⟩ := hm
    exact hem ▸ hseed hready e he
  · exact h.derived

theorem Fresh.step (h : Fresh l inferenceKey s) {e : Event} (hseed : SeedCovers s e) :
    Fresh l inferenceKey (s.step l inferenceKey e) := by
  cases e with
  | draw request =>
    simp only [Serving.step]
    by_cases hready : s.ready = true
    · rw [if_pos hready]
      exact h.drawn hready request
    · rw [if_neg hready]
      exact h
  | openCall i clock =>
    simp only [Serving.step]
    cases hd : s.inFlight[i]? with
    | none => exact h
    | some d => exact h.opened hd _
  | abandon i => exact h.dropped (List.eraseIdx_sublist _ _)
  | ledger call =>
    simp only [Serving.step]
    split
    · exact h
    · exact ⟨h.distinct, h.behind, h.derived⟩
  | restart clock life =>
    simp only [Serving.step]
    cases hrun : reconcileOnStart l clock ⟨s.ledger, life⟩ with
    | mk r t =>
      cases r with
      | ok out =>
        apply h.restarted
        intro _ e he
        exact (hseed e he).trans (reconcileOnStart_seed hrun)
      | error e =>
        apply h.restarted
        intro hready
        exact absurd hready (by simp)

end

/-- In every interleaving of requests, ledger operations and restarts in which the number of
    inference calls a restart finds is at least every nonce a call was opened under, no two
    invocations obtain the same call id. -/
theorem callIds_distinct (l : ExternalCallLedger)
    (inferenceKey : (cell op bodyHash : String) → (nonce : ℕ) → String)
    (hids : NoncesSeparate l inferenceKey) (ledger : Database) (events : List Event)
    (hseed : Allowed (Serving.step l inferenceKey) SeedCovers (.start ledger) events) :
    ((run (Serving.step l inferenceKey) (.start ledger) events).obtained.map (·.2)).Nodup := by
  have hfresh : Fresh l inferenceKey (run (Serving.step l inferenceKey) (.start ledger) events) := by
    apply invariant (fun s e h he => h.step he) ?_ hseed
    exact ⟨List.nodup_nil, fun _ n hn => absurd hn (by simp [Serving.start]), fun e he => by cases he⟩
  have hnonces := (List.nodup_append.mp hfresh.distinct).1
  have hpairs := List.Nodup.of_map _ hnonces
  apply hpairs.map_on
  intro e he e' he' heq
  obtain ⟨d, hd, hid⟩ := hfresh.derived e he
  obtain ⟨d', hd', hid'⟩ := hfresh.derived e' he'
  have hnonce : e.1 = e'.1 := by
    rw [← hd, ← hd']
    exact hids d d' (hid.trans (heq.trans hid'.symm))
  exact Prod.ext hnonce heq

/-- A key that begins with its nonce, and call ids that begin with their key. -/
def countedKey (cell op bodyHash : String) (nonce : ℕ) : String :=
  .ofList (List.replicate nonce '#' ++ '/' :: (cell ++ op ++ bodyHash).toList)

def countedLedger : ExternalCallLedger where
  budget := { Budget.sampleBudget with
    ids := { DerivedIds.plain with
      externalCall := fun provider opClass workKey callKey => callKey ++ (provider ++ opClass ++ workKey) } }
  storeRedacted text := .ok ⟨text, text.length, text.length⟩

theorem countedKeys_separate : NoncesSeparate countedLedger countedKey := by
  have hmarks : ∀ d : Drawn, ((callIdOf countedLedger countedKey d).toList.takeWhile (· = '#')).length =
      d.nonce := by
    intro d
    have hlist : ∃ rest, (callIdOf countedLedger countedKey d).toList =
        List.replicate d.nonce '#' ++ '/' :: rest := by
      refine ⟨?_, ?_⟩
      · exact (d.request.cell ++ d.request.op ++ d.request.bodyHash).toList ++
          ("vllm" ++ d.request.op ++ (Budget.firstOf d.request.workKey (some "-")).getD "-").toList
      · simp [callIdOf, callKeyOf, countedLedger, countedKey, String.toList_append]
    obtain ⟨rest, hrest⟩ := hlist
    rw [hrest, List.takeWhile_append_of_pos]
    · simp
    · intro c hc
      simp [List.eq_of_mem_replicate hc]
  intro d d' h
  rw [← hmarks d, ← hmarks d', h]

def askPage : Request := ⟨"cell-1", "PAGE_P0_SUMMARY", "body-1", none⟩

/-- Two lives of the service, each opening what it draws. -/
def openedInOrder : List Event :=
  [.restart 0 none, .draw askPage, .openCall 0 1, .restart 2 none, .draw askPage, .openCall 0 3]

theorem callIds_distinct_openedInOrder :
    ((run (Serving.step countedLedger countedKey) (.start .empty) openedInOrder).obtained.map (·.2)).Nodup :=
  callIds_distinct countedLedger countedKey countedKeys_separate .empty openedInOrder (by decide +kernel)

/-- The invocation with the first nonce hangs, the one with the second opens its call, and the
    service dies: the ledger has one call, so the next invocation draws the second nonce again. -/
def lostNonce : List Event :=
  [.restart 0 none, .draw askPage, .draw askPage, .openCall 1 1, .restart 2 none, .draw askPage, .openCall 0 3]

theorem lostNonce_reused :
    ¬ ((run (Serving.step countedLedger countedKey) (.start .empty) lostNonce).obtained.map (·.2)).Nodup := by
  decide +kernel

end Shapeflow.InferenceCalls
