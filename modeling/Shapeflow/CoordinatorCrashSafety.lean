import Shapeflow.CoordinatorCrash
import Shapeflow.CoordinatorRun
import Shapeflow.WorkLedgerFrame

set_option autoImplicit false

/-!
# The coordinator survives its crashes

In every history of processes that die before any of their writes, a committed
item has its result in the store. An item that a dead process held stays as it
is until a process starts past its lease; that reclaim ends an item with side
effects for good, and makes any other claimable again while it has retries.
-/
namespace Shapeflow.Coordinator.Crash
open Script Database Table WorkLedger Session

variable {β : Type} {ledger : Ledger}

/-! ## What every write keeps -/

/-- The committed results are blobs that `made` says were made for their item, and are in the store. -/
def ResultStored (hash : β → String) (made : String → β → Prop) (objects : ObjectStore β) (r : AttemptRow) : Prop :=
  ∃ raw, made r.workKey raw ∧ r.resultObjectRef = some (hash raw) ∧ objects.Verifies hash (hash raw)

structure Sound (hash : β → String) (ledger : Ledger) (made : String → β → Prop) (s : Stores β) : Prop where
  owned : Owned s.database
  settled : AllSettled s.database
  derived : IdsDerived ledger.ids s.database
  intact : s.objects.Intact hash
  results : ∀ r ∈ s.database.attempts.rows, r.state = .committed → ResultStored hash made s.objects r

section
variable {hash : β → String} {made : String → β → Prop} {s t : Stores β}

theorem sound_empty : Sound hash ledger made (emptyStores : Stores β) where
  owned := owned_empty
  settled _ _ hl := nomatch hl
  derived _ hr := nomatch hr
  intact := ObjectStore.intact_empty
  results _ hr := nomatch hr

theorem Sound.weaken {made' : String → β → Prop} (h : Sound hash ledger made s)
    (hmade : ∀ k raw, made k raw → made' k raw) : Sound hash ledger made' s := by
  refine ⟨h.owned, h.settled, h.derived, h.intact, fun r hr hc => ?_⟩
  obtain ⟨raw, hraw, hrest⟩ := h.results r hr hc
  exact ⟨raw, hmade _ _ hraw, hrest⟩

theorem Sound.atMostOneLive (h : Sound hash ledger made s) : AtMostOneLive s.database :=
  AllCoupled.atMostOneLive fun k l hl => (h.settled k l hl).1

/-- A call of the ledger whose commits name stored results. -/
theorem Sound.call (h : Sound hash ledger made s) (call : Call) {u : Database}
    (hu : WorkLedger.step ledger s.database call = u) (hok : FailsInPlace s.database call)
    (hresults : ∀ r ∈ u.attempts.rows, r.state = .committed →
      r ∈ s.database.attempts.rows ∨ ResultStored hash made s.objects r) :
    Sound hash ledger made { s with database := u } := by
  subst hu
  obtain ⟨⟨howned, hsettled⟩, -⟩ := step_keeps ledger ⟨h.owned, h.settled⟩ hok
  refine ⟨howned, hsettled, step_idsDerived ledger h.owned h.derived, h.intact, ?_⟩
  intro r hr hc
  rcases hresults r hr hc with hin | hnew
  · exact h.results r hin hc
  · exact hnew

/-- Writing another table changes nothing here. -/
theorem Sound.of_workRows (h : Sound hash ledger made s) {u : Database}
    (hu : workRows u = workRows s.database) : Sound hash ledger made { s with database := u } := by
  have hsame : Evolves WorkItemLife.Lasting s.database u ∧ Owned u := same_of_workRows hu h.owned
  have hrows := hu
  simp only [workRows, Prod.mk.injEq] at hrows
  obtain ⟨hitems, hatts, -⟩ := hrows
  refine ⟨hsame.2, ?_, ?_, h.intact, ?_⟩
  · intro k l hl
    refine h.settled k l ?_
    rw [← hl]
    unfold lifeOf
    rw [fetchWorkItem_congr hitems]
    congr 1
    funext wi
    simp only [lifeOfItem, attemptsOf, hatts]
  · unfold IdsDerived
    rw [hatts]
    exact h.derived
  · change ∀ r ∈ u.attempts.rows, _
    rw [hatts]
    exact h.results

theorem Sound.put (h : Sound hash ledger made s) (raw : β) :
    Sound hash ledger made { s with objects := s.objects.putBytes hash raw } := by
  refine ⟨h.owned, h.settled, h.derived, ObjectStore.intact_putBytes h.intact raw, ?_⟩
  intro r hr hc
  obtain ⟨old, hmade, href, hver⟩ := h.results r hr hc
  exact ⟨old, hmade, href, (ObjectStore.grown_putBytes s.objects raw).verifies hver⟩

theorem Sound.verifies (h : Sound hash ledger made s) (hkey : ∀ raw, ObjectStore.isKey (hash raw)) (raw : β) :
    (s.objects.putBytes hash raw).Verifies hash (hash raw) := by
  refine ObjectStore.verifies_putBytes (hkey raw) ?_
  rintro ⟨content, hget, hbad⟩
  obtain ⟨old, rfl, hold⟩ := h.intact _ _ hget
  exact hbad old rfl hold

end

/-! ## One turn -/

section
variable {hash : β → String} {made : String → β → Prop} {k a : String} {s t : Stores β}

/-- Sound stores in which only item `k` has moved since `s`. -/
def Within (hash : β → String) (ledger : Ledger) (made : String → β → Prop) (k : String) (s t : Stores β) : Prop :=
  Sound hash ledger made t ∧ OnlyItem k s.database t.database

/-- And attempt `a` is still at work on it. -/
def Trying (hash : β → String) (ledger : Ledger) (made : String → β → Prop) (k a : String) (s t : Stores β) : Prop :=
  Within hash ledger made k s t ∧
    ∃ att, fetchAttempt t.database a = some att ∧ att.workKey = k ∧ att.state ∈ inProgress

theorem ends_onLedger {α : Type} {body : Db α} {C : Stores β → Prop} {Q : Except Raised α → Stores β → Prop}
    (hC : C s) (hok : ∀ v u, body s.database = (.ok v, u) → Q (.ok v) { s with database := u })
    (herror : ∀ e, Q (.error e) s) : Ends C Q (onLedger body) s := by
  refine ends_tx hC ?_ fun e t _ => herror e
  intro v t h
  unfold onDatabase at h
  cases hbody : body s.database with
  | mk r u =>
    rw [hbody] at h
    cases r with
    | ok w =>
      simp only [Prod.mk.injEq, Except.ok.injEq] at h
      obtain ⟨rfl, rfl⟩ := h
      exact hok w u hbody
    | error e => cases h

theorem Within.refl (h : Sound hash ledger made s) (k : String) : Within hash ledger made k s s := ⟨h, .refl k _⟩

theorem Trying.aside (h : Trying hash ledger made k a s t) {u : Database}
    (hu : workRows u = workRows t.database) : Trying hash ledger made k a s { t with database := u } := by
  obtain ⟨⟨hsound, honly⟩, att, hatt, hk, hlive⟩ := h
  refine ⟨⟨hsound.of_workRows hu, honly.trans (.of_workRows k hu)⟩, att, ?_, hk, hlive⟩
  simp only [workRows, Prod.mk.injEq] at hu
  unfold fetchAttempt at hatt ⊢
  rw [hu.2.1]
  exact hatt

theorem Trying.advanced (h : Trying hash ledger made k a s t) {now : ℚ} {target : WorkState} {v : Unit} {u : Database}
    (hrun : advance now a target "" t.database = (.ok v, u)) :
    Trying hash ledger made k a s { t with database := u } := by
  obtain ⟨⟨hsound, honly⟩, att, hatt, hk, hlive⟩ := h
  obtain ⟨hframe, hnothing, hatt', htarget⟩ := advance_frame hatt hrun
  refine ⟨⟨hsound.call ⟨now, .advance a target ""⟩ (after_of_ok hrun) trivial ?_, ?_⟩,
    advancedRow target att, hatt', hk, htarget⟩
  · exact fun r hr hc => .inl (hnothing r hr hc)
  · exact honly.trans (hk ▸ hframe)

theorem Trying.committed (h : Trying hash ledger made k a s t) {now : ℚ} {raw : β} (hmade : made k raw)
    (hver : t.objects.Verifies hash (hash raw)) {v : Unit} {u : Database}
    (hrun : commit now a (hash raw) "" t.database = (.ok v, u)) :
    Within hash ledger made k s { t with database := u } := by
  obtain ⟨⟨hsound, honly⟩, att, hatt, hk, hlive⟩ := h
  obtain ⟨hframe, hcommits⟩ := commit_frame hatt hrun
  refine ⟨hsound.call ⟨now, .commit a (hash raw) ""⟩ (after_of_ok hrun) trivial ?_,
    honly.trans (hk ▸ hframe)⟩
  intro r hr hc
  rcases hcommits r hr hc with hin | ⟨hrk, href⟩
  · exact .inl hin
  · refine .inr ⟨raw, ?_, href, hver⟩
    rw [hrk, hk]
    exact hmade

/-- The failure of an attempt at work is one that the ledger may be told of. -/
theorem Trying.failed (h : Trying hash ledger made k a s t) {now : ℚ} {d : WorkState} {errorClass message : String}
    {v : WorkState} {u : Database} (hrun : fail now a d errorClass message "" t.database = (.ok v, u)) :
    Within hash ledger made k s { t with database := u } := by
  obtain ⟨⟨hsound, honly⟩, att, hatt, hk, hlive⟩ := h
  obtain ⟨hframe, hnothing⟩ := fail_frame hatt hrun
  refine ⟨hsound.call ⟨now, .fail a d errorClass message ""⟩ (after_of_ok hrun) ?_ ?_,
    honly.trans (hk ▸ hframe)⟩
  · intro hd att' hmem hid wi hwi hwk
    obtain ⟨hmem', hid'⟩ := fetchAttempt_some hatt
    obtain rfl := eq_of_key t.database.attempts.sound.1 hmem hmem' (hid.trans hid'.symm)
    exact .inl hlive
  · exact fun r hr hc => .inl (hnothing r hr hc)

theorem ends_invoke {α : Type} {C : Stores β → Prop} {Q : Except Raised α → Stores β → Prop} (o : Outcome α)
    (hok : ∀ value, o = .returned value → Q (.ok value) s) (herror : ∀ e, Q (.error e) s) :
    Ends C Q (invoke o) s := by
  cases o with
  | returned value => exact ends_pure (hok value rfl)
  | retryable errorClass message => exact ends_raise (herror _)
  | fatal errorClass message => exact ends_raise (herror _)

/-- What the executor of a coordinator returns for an item is what `made` says. -/
def Makes (made : String → β → Prop) (c : Coordinator β) : Prop :=
  ∀ turn item raw, c.executor turn item = .returned raw → made item.workKey raw

/-- The body of the `try`: the item is committed to a blob that is in the store, or the attempt is
    still there to be failed. -/
theorem attemptItem_ends (hkey : ∀ raw, ObjectStore.isKey (hash raw)) {c : Coordinator β} (hmakes : Makes made c)
    (turn : ℕ) {item : WorkItemRow} (hitem : item.workKey = k) (summary : RunSummary)
    (h : Trying hash ledger made k a s t) :
    Ends (Within hash ledger made k s)
      (fun r u => match r with
        | .ok _ => Within hash ledger made k s u
        | .error _ => Trying hash ledger made k a s u)
      (attemptItem hash c turn k item a summary) t := by
  unfold attemptItem
  apply ends_bind
  refine ends_invoke _ ?_ fun e => h
  intro raw hraw
  have hmade : made k raw := hitem ▸ hmakes turn item raw hraw
  have hstored := h.1.1.verifies hkey raw
  have hput : Trying hash ledger made k a s { t with objects := t.objects.putBytes hash raw } := by
    obtain ⟨⟨hsound, honly⟩, hatt⟩ := h
    exact ⟨⟨hsound.put raw, honly⟩, hatt⟩
  apply ends_bind
  apply ends_bind
  refine ends_tx_ok h.1 rfl ?_
  apply ends_pure
  -- The ledger writes no blob, so the result is stored throughout.
  apply ends_bind
  refine ends_onLedger hput.1 ?_ fun e => hput
  intro v₁ u₁ hregister
  have h₁ := hput.aside (registerArtifact_frame hregister)
  apply ends_bind
  refine ends_onLedger h₁.1 ?_ fun e => h₁
  intro v₂ u₂ hmaterialized
  have h₂ := h₁.advanced hmaterialized
  apply ends_bind
  unfold validate
  have hrest : Ends (Within hash ledger made k s)
      (fun r u => match r with
        | .ok _ => Within hash ledger made k s u
        | .error _ => Trying hash ledger made k a s u)
      (do
        onLedger (advance (c.now turn 4) a .validated)
        onLedger (commit (c.now turn 5) a (hash raw))
        pure { summary with committed := summary.committed + 1 })
      { t with objects := t.objects.putBytes hash raw, database := u₂ } := by
    apply ends_bind
    refine ends_onLedger h₂.1 ?_ fun e => h₂
    intro v₃ u₃ hvalidated
    have h₃ := h₂.advanced hvalidated
    apply ends_bind
    refine ends_onLedger h₃.1 ?_ fun e => h₃
    intro v₄ u₄ hcommit
    exact ends_pure (h₃.committed hmade hstored hcommit)
  cases c.validator with
  | none => exact ends_pure hrest
  | some validator => exact ends_invoke _ (fun _ _ => hrest) fun e => h₂

theorem process_ends (hkey : ∀ raw, ObjectStore.isKey (hash raw)) {c : Coordinator β} (hmakes : Makes made c)
    (hledger : c.ledger = ledger) (turn : ℕ) (k : String) (summary : RunSummary) (h : Sound hash ledger made s) :
    Ends (Within hash ledger made k s) (fun _ t => Within hash ledger made k s t) (process hash c turn k summary) s := by
  have hstart : Within hash ledger made k s s := ⟨h, .refl k _⟩
  unfold process
  apply ends_readStore
  cases hitem : fetchWorkItem s.database k with
  | none => exact ends_pure hstart
  | some item =>
    simp only
    split
    · exact ends_pure hstart
    · apply ends_bind
      refine ends_onLedger hstart ?_ fun e => hstart
      intro attempt u hclaim
      obtain ⟨hframe, hnothing, hatt⟩ := claim_frame hclaim
      have hclaimed : Within hash ledger made k s { s with database := u } := by
        subst hledger
        refine ⟨h.call ⟨c.now turn 1, .claim k c.workerId c.lease ""⟩ (after_of_ok hclaim) trivial ?_, hframe⟩
        exact fun r hr hc => .inl (hnothing r hr hc)
      cases attempt with
      | none => exact ends_pure hclaimed
      | some attempt =>
        refine ends_catching rfl ((attemptItem_ends hkey hmakes turn (fetchWorkItem_some hitem).2 summary
          ⟨hclaimed, hatt attempt rfl⟩).mono (fun _ h => h) ?_)
        intro r t ht
        cases r with
        | ok summary' => exact ht
        | error e =>
          cases e with
          | retryableError errorClass message =>
            apply ends_bind
            refine ends_onLedger ht.1 ?_ fun e => ht.1
            intro state v hfail
            exact ends_pure (ht.failed hfail)
          | fatalProtocolError errorClass message =>
            apply ends_bind
            refine ends_onLedger ht.1 ?_ fun e => ht.1
            intro state v hfail
            have hfailed := ht.failed hfail
            apply ends_bind
            refine ends_onLedger hfailed ?_ fun e => hfailed
            intro _ w hincident
            have hrows := recordIncident_frame hincident
            exact ends_pure ⟨hfailed.1.of_workRows hrows, hfailed.2.trans (.of_workRows k hrows)⟩
          | _ => exact ht.1

end

/-! ## The loop -/

/-- The items that are not pending, with their attempts, are as they were. -/
def Untouched (s t : Database) : Prop :=
  ∀ k wi, fetchWorkItem s k = some wi → wi.state ≠ .pending →
    fetchWorkItem t k = some wi ∧ attemptsOf t k = attemptsOf s k

theorem Untouched.turn {s t u : Database} {k : String} (h : Untouched s t)
    (hpending : ∃ wi, fetchWorkItem t k = some wi ∧ wi.state = .pending) (honly : OnlyItem k t u) :
    Untouched s u := by
  intro j wi hwi hst
  obtain ⟨hitem, hatts⟩ := h j wi hwi hst
  have hne : j ≠ k := by
    rintro rfl
    obtain ⟨wi', hwi', hst'⟩ := hpending
    rw [hitem] at hwi'
    exact hst (Option.some.inj hwi' ▸ hst')
  rw [honly.items j hne, honly.attempts j hne]
  exact ⟨hitem, hatts⟩

section
variable {hash : β → String} {made : String → β → Prop} {s : Stores β}

/-- The loop claims pending items only, however many it gets to. -/
theorem loop_ends (hkey : ∀ raw, ObjectStore.isKey (hash raw)) {c : Coordinator β} (hmakes : Makes made c)
    (hledger : c.ledger = ledger) (maxItems : Option ℕ) (budgetRemaining : Option (ℕ → ℚ)) (start : Database)
    (fuel turn : ℕ) (summary : RunSummary) (h : Sound hash ledger made s) (hstart : Untouched start s.database) :
    Ends (fun t => Sound hash ledger made t ∧ Untouched start t.database)
      (fun _ t => Sound hash ledger made t ∧ Untouched start t.database)
      (loop hash c maxItems budgetRemaining fuel turn summary) s := by
  induction fuel generalizing turn summary s with
  | zero => exact ends_pure ⟨h, hstart⟩
  | succ fuel ih =>
    unfold loop
    split
    · exact ends_pure ⟨h, hstart⟩
    split
    · exact ends_pure ⟨h, hstart⟩
    apply ends_readStore
    cases hkeys : pendingKeys s.database 1 with
    | nil => exact ends_pure ⟨h, hstart⟩
    | cons k rest =>
      have hpending := pendingKeys_cons hkeys
      apply ends_bind
      apply (process_ends hkey hmakes hledger turn k summary h).mono
      · exact fun t ht => ⟨ht.1, hstart.turn hpending ht.2⟩
      · intro r t ht
        have hturn : Sound hash ledger made t ∧ Untouched start t.database := ⟨ht.1, hstart.turn hpending ht.2⟩
        cases r with
        | error e => exact hturn
        | ok summary' =>
          simp only
          split
          · exact ends_pure hturn
          split
          · exact ends_pure hturn
          · exact ih (turn + 1) summary' hturn.1 hturn.2

/-! ## A process and a history -/

theorem leaves_of_dead {l : Lifetime ledger β} (hlife : l.life = some 0) : l.leaves hash s = s := by
  unfold Lifetime.leaves run resume onLedger
  rw [hlife]
  rfl

/-- A process that lives to write reclaims the stale attempts, and then leaves alone what is not pending. -/
theorem leaves_of_living (hkey : ∀ raw, ObjectStore.isKey (hash raw)) {l : Lifetime ledger β}
    (hmakes : Makes made l.coordinator) (hlife : l.life ≠ some 0) (h : Sound hash ledger made s) :
    ∃ ks u, reclaimStale (l.coordinator.now 0 0) none s.database = (.ok ks, u) ∧
      Sound hash ledger made (l.leaves hash s) ∧ Untouched u (l.leaves hash s).database := by
  obtain ⟨ks, u, hrun, -⟩ := reclaimStale_evolves (fun _ _ _ => True) (l.coordinator.now 0 0) none
    (fun _ _ _ _ => trivial) h.owned
  have hsound : Sound hash ledger made { s with database := u } := by
    refine h.call ⟨l.coordinator.now 0 0, .reclaimStale none⟩ (after_of_ok hrun) trivial ?_
    intro r hr hc
    rw [reclaimStale_attempts h.owned hrun] at hr
    obtain ⟨q, hq, rfl⟩ := mem_updated.mp hr
    split at hc
    · cases hc
    · rename_i hstale
      rw [if_neg hstale]
      exact .inl hq
  have hbody : onDatabase (reclaimStale (l.coordinator.now 0 0)) s = (.ok ks, { s with database := u }) := by
    unfold onDatabase
    rw [hrun]
  have hfirst : resume l.coordinator ⟨s, l.life⟩ = (.ok ks, ⟨{ s with database := u }, l.life.map (· - 1)⟩) :=
    tx_living hlife hbody
  refine ⟨ks, u, hrun, ?_⟩
  unfold Lifetime.leaves run
  rw [after_bind_of_ok hfirst]
  exact (loop_ends hkey hmakes l.bound l.maxItems l.budgetRemaining u l.fuel 0 {} hsound
    fun _ _ hwi _ => ⟨hwi, rfl⟩).after _

/-- Whatever the process of an event executes is in `made`. -/
def MadeBy (made : String → β → Prop) : Event ledger β → Prop
  | .ensured .. => True
  | .lived l => Makes made l.coordinator

theorem step_sound (hkey : ∀ raw, ObjectStore.isKey (hash raw)) (e : Event ledger β) (hmade : MadeBy made e)
    (h : Sound hash ledger made s) : Sound hash ledger made (step hash s e) := by
  cases e with
  | ensured now coordinates sideEffecting maxRetries =>
    refine h.call ⟨now, .ensureWorkItem coordinates sideEffecting maxRetries⟩ rfl trivial ?_
    intro r hr hc
    rw [ensureWorkItem_attempts] at hr
    exact .inl hr
  | lived l =>
    by_cases hlife : l.life = some 0
    · rw [step, leaves_of_dead hlife]
      exact h
    · obtain ⟨ks, u, -, hsound, -⟩ := leaves_of_living hkey hmade hlife h
      exact hsound

theorem run_sound (hkey : ∀ raw, ObjectStore.isKey (hash raw)) (events : List (Event ledger β))
    (hmade : ∀ e ∈ events, MadeBy made e) (h : Sound hash ledger made s) :
    Sound hash ledger made (Run.run (step hash) s events) := by
  induction events generalizing s with
  | nil => exact h
  | cons e events ih =>
    obtain ⟨he, hrest⟩ := List.forall_mem_cons.mp hmade
    exact ih hrest (step_sound hkey e he h)

/-! ## An item that a dead process held -/

/-- A process starts past the lease of the item, and lives to write. -/
def Restarts (s : Database) (k : String) : Event ledger β → Prop
  | .ensured .. => False
  | .lived l => l.life ≠ some 0 ∧ LeaseOver s k (l.coordinator.now 0 0)

theorem restarts_congr {d d' : Database} {k : String} (h : attemptsOf d' k = attemptsOf d k) {e : Event ledger β} :
    Restarts d' k e ↔ Restarts d k e := by
  cases e with
  | ensured now coordinates sideEffecting maxRetries => exact Iff.rfl
  | lived l => simp only [Restarts, LeaseOver, liveAttempts, h]

/-- The item and its attempts are as they were. -/
def Waits (s t : Database) (wi : WorkItemRow) : Prop :=
  fetchWorkItem t wi.workKey = some wi ∧ attemptsOf t wi.workKey = attemptsOf s wi.workKey

/-- The item is failed for good, without another attempt. -/
def GivenUp (s t : Database) (wi : WorkItemRow) : Prop :=
  attemptIds t wi.workKey = attemptIds s wi.workKey ∧
    ∃ wi', fetchWorkItem t wi.workKey = some wi' ∧ wi'.state = .failedUnknown

theorem live_of_inProgress {d : Database} (h : AtMostOneLive d) {k : String} {wi : WorkItemRow}
    (hwi : fetchWorkItem d k = some wi) (hlive : wi.state ∈ inProgress) : ∃ att, liveAttempts d k = [att] := by
  obtain ⟨hmem, rfl⟩ := fetchWorkItem_some hwi
  exact List.length_eq_one_iff.mp ((h wi hmem).2.1.mp hlive)

theorem no_live_of_not_inProgress {d : Database} (h : AtMostOneLive d) {k : String} {wi : WorkItemRow}
    (hwi : fetchWorkItem d k = some wi) (hdead : wi.state ∉ inProgress) : liveAttempts d k = [] := by
  obtain ⟨hmem, rfl⟩ := fetchWorkItem_some hwi
  obtain ⟨hle, hiff, -, -⟩ := h wi hmem
  have hne := mt hiff.mpr hdead
  exact List.length_eq_zero_iff.mp (by omega)

/-- An event leaves an item that is not pending alone, unless it restarts past the item's lease. -/
theorem step_waits (hkey : ∀ raw, ObjectStore.isKey (hash raw)) (e : Event ledger β) (hmade : MadeBy made e)
    (h : Sound hash ledger made s) {wi : WorkItemRow} (hwi : fetchWorkItem s.database wi.workKey = some wi)
    (hst : wi.state ≠ .pending) (hnot : wi.state ∈ inProgress → ¬ Restarts s.database wi.workKey e) :
    Waits s.database (step hash s e).database wi := by
  cases e with
  | ensured now coordinates sideEffecting maxRetries =>
    refine ⟨ensureWorkItem_spares ledger coordinates sideEffecting maxRetries hwi, ?_⟩
    unfold attemptsOf
    exact congrArg _ (ensureWorkItem_attempts ledger coordinates sideEffecting maxRetries)
  | lived l =>
    by_cases hlife : l.life = some 0
    · rw [step, leaves_of_dead hlife]
      exact ⟨hwi, rfl⟩
    · obtain ⟨ks, u, hrun, -, huntouched⟩ := leaves_of_living hkey hmade hlife h
      have hnone : ∀ att ∈ liveAttempts s.database wi.workKey, leaseExpired (l.coordinator.now 0 0) att = false := by
        by_cases hlive : wi.state ∈ inProgress
        · obtain ⟨att, hatt⟩ := live_of_inProgress h.atMostOneLive hwi hlive
          have hover : ¬ LeaseOver s.database wi.workKey (l.coordinator.now 0 0) := fun h => hnot hlive ⟨hlife, h⟩
          unfold LeaseOver at hover
          rw [hatt] at hover ⊢
          simpa using hover
        · rw [no_live_of_not_inProgress h.atMostOneLive hwi hlive]
          exact fun att hatt => nomatch hatt
      obtain ⟨hitem, hatts⟩ := reclaimStale_spares h.owned hrun hnone
      obtain ⟨hitem', hatts'⟩ := huntouched wi.workKey wi (hitem.trans hwi) hst
      exact ⟨hitem', hatts'.trans hatts⟩

/-- A restart past its lease gives up an item with side effects. -/
theorem step_givesUp (hkey : ∀ raw, ObjectStore.isKey (hash raw)) (e : Event ledger β) (hmade : MadeBy made e)
    (h : Sound hash ledger made s) {wi : WorkItemRow} (hwi : fetchWorkItem s.database wi.workKey = some wi)
    (hside : wi.sideEffecting) (hlive : wi.state ∈ inProgress) (hrestarts : Restarts s.database wi.workKey e) :
    GivenUp s.database (step hash s e).database wi := by
  cases e with
  | ensured now coordinates sideEffecting maxRetries => exact hrestarts.elim
  | lived l =>
    obtain ⟨hlife, hover⟩ := hrestarts
    obtain ⟨ks, u, hrun, -, huntouched⟩ := leaves_of_living hkey hmade hlife h
    obtain ⟨att, hatt⟩ := live_of_inProgress h.atMostOneLive hwi hlive
    have hitem := reclaimStale_reclaims h.owned hrun (by rw [hatt]; rfl) hover
    rw [hwi, Option.map_some] at hitem
    have hst : (reclaimedRow (l.coordinator.now 0 0) wi).state = .failedUnknown := by
      simp [reclaimedRow, reclaimTarget, hside, routedRow]
    obtain ⟨hitem', hatts'⟩ := huntouched wi.workKey _ hitem (by simp [hst])
    refine ⟨?_, _, hitem', hst⟩
    rw [← attemptIds_reclaimStale h.owned hrun]
    exact congrArg (List.map AttemptRow.attemptId) hatts'

theorem run_givenUp (hkey : ∀ raw, ObjectStore.isKey (hash raw)) (events : List (Event ledger β))
    (hmade : ∀ e ∈ events, MadeBy made e) (h : Sound hash ledger made s) {wi : WorkItemRow}
    (hwi : fetchWorkItem s.database wi.workKey = some wi) (hst : wi.state = .failedUnknown) :
    Waits s.database (Run.run (step hash) s events).database wi := by
  induction events generalizing s with
  | nil => exact ⟨hwi, rfl⟩
  | cons e events ih =>
    obtain ⟨he, hrest⟩ := List.forall_mem_cons.mp hmade
    obtain ⟨hitem, hatts⟩ := step_waits hkey e he h hwi (by simp [hst]) (by simp [hst, inProgress])
    obtain ⟨hitem', hatts'⟩ := ih hrest (step_sound hkey e he h) hitem
    exact ⟨hitem', hatts'.trans hatts⟩

/-- Until a restart past its lease the item waits as it was left, and from then on it is given up. -/
theorem run_held (hkey : ∀ raw, ObjectStore.isKey (hash raw)) (events : List (Event ledger β))
    (hmade : ∀ e ∈ events, MadeBy made e) (h : Sound hash ledger made s) {wi : WorkItemRow}
    (hwi : fetchWorkItem s.database wi.workKey = some wi) (hside : wi.sideEffecting) (hlive : wi.state ∈ inProgress) :
    (∃ e ∈ events, Restarts s.database wi.workKey e) ∧ GivenUp s.database (Run.run (step hash) s events).database wi ∨
      (∀ e ∈ events, ¬ Restarts s.database wi.workKey e) ∧
        Waits s.database (Run.run (step hash) s events).database wi := by
  induction events generalizing s with
  | nil => exact .inr ⟨by simp, hwi, rfl⟩
  | cons e events ih =>
    obtain ⟨he, hrest⟩ := List.forall_mem_cons.mp hmade
    have hst : wi.state ≠ .pending := by
      intro hp
      simp [hp, inProgress] at hlive
    by_cases hrestarts : Restarts s.database wi.workKey e
    · obtain ⟨hids, wi', hitem, hst'⟩ := step_givesUp hkey e he h hwi hside hlive hrestarts
      have hk := (fetchWorkItem_some hitem).2
      rw [← hk] at hitem
      obtain ⟨hitem', hatts'⟩ := run_givenUp hkey events hrest (step_sound hkey e he h) hitem hst'
      rw [hk] at hitem' hatts'
      refine .inl ⟨⟨e, by simp, hrestarts⟩, ?_, wi', hitem', hst'⟩
      rw [← hids]
      exact congrArg (List.map AttemptRow.attemptId) hatts'
    · obtain ⟨hitem, hatts⟩ := step_waits hkey e he h hwi hst fun _ => hrestarts
      rcases ih hrest (step_sound hkey e he h) hitem with ⟨⟨e', he', hlater⟩, hids, hend⟩ | ⟨hnone, hitem', hatts'⟩
      · refine .inl ⟨⟨e', List.mem_cons_of_mem _ he', (restarts_congr hatts).mp hlater⟩, ?_, hend⟩
        exact hids.trans (congrArg (List.map AttemptRow.attemptId) hatts)
      · refine .inr ⟨?_, hitem', hatts'.trans hatts⟩
        refine List.forall_mem_cons.mpr ⟨hrestarts, fun e' he' hlater => ?_⟩
        exact hnone e' he' ((restarts_congr hatts).mpr hlater)

end

/-! ## Crash safety -/

/-- Some process of the history executed the item with this result. -/
def Executed (events : List (Event ledger β)) (k : String) (raw : β) : Prop :=
  ∃ l : Lifetime ledger β, .lived l ∈ events ∧
    ∃ turn item, item.workKey = k ∧ l.coordinator.executor turn item = .returned raw

/-- Every committed item names a blob of what was executed for it, which the store gives back. -/
def ResultsStored (hash : β → String) (events : List (Event ledger β)) (s : Stores β) : Prop :=
  ∀ wi ∈ s.database.workItems.rows, wi.state = .committed →
    ∃ raw stored, Executed events wi.workKey raw ∧ committedRef s.database wi.workKey = some (hash raw) ∧
      s.objects.getBytes hash (hash raw) = .ok stored ∧ hash stored = hash raw

/-- An item with side effects that is found in progress gets no further attempt in any later history; it ends
    `FAILED_UNKNOWN` with the first process that starts past its lease and writes. -/
def NeverClaimedAgain (hash : β → String) (ledger : Ledger) (s : Stores β) : Prop :=
  ∀ wi ∈ s.database.workItems.rows, wi.sideEffecting = true → wi.state ∈ inProgress →
    ∀ later : List (Event ledger β),
      attemptIds (Run.run (step hash) s later).database wi.workKey = attemptIds s.database wi.workKey ∧
        ∃ wi', fetchWorkItem (Run.run (step hash) s later).database wi.workKey = some wi' ∧
          (wi'.state = wi.state ∨ wi'.state = .failedUnknown) ∧
          ((∃ e ∈ later, Restarts s.database wi.workKey e) → wi'.state = .failedUnknown)

/-- An item without side effects that is found in progress is pending again, one retry poorer, after the reclaim
    of a process that starts past its lease, and whoever claims it then gets an attempt. -/
def ClaimableAgain (ledger : Ledger) (s : Stores β) : Prop :=
  ∀ wi ∈ s.database.workItems.rows, wi.sideEffecting = false → wi.state ∈ inProgress → retriesLeft wi →
    ∀ c : Coordinator β, LeaseOver s.database wi.workKey (c.now 0 0) →
      ∃ ks t, resume c ⟨s, none⟩ = (.ok ks, ⟨t, none⟩) ∧
        fetchWorkItem t.database wi.workKey = some (reopenRow (c.now 0 0) wi) ∧
        ∀ now worker lease runId, ∃ a u,
          claim ledger now wi.workKey worker lease runId t.database = (.ok (some a), u)

section
variable {hash : β → String} {made : String → β → Prop} {s : Stores β}

theorem Sound.committedRef (h : Sound hash ledger made s) {wi : WorkItemRow} (hwi : wi ∈ s.database.workItems.rows)
    (hst : wi.state = .committed) :
    ∃ raw stored, made wi.workKey raw ∧ WorkLedger.committedRef s.database wi.workKey = some (hash raw) ∧
      s.objects.getBytes hash (hash raw) = .ok stored ∧ hash stored = hash raw := by
  have hdone := (h.settled _ _ (lifeOf_of_mem hwi)).2
  rw [WorkItemLife.Settled, if_pos (by exact hst)] at hdone
  obtain ⟨x, hx, hxdone⟩ := List.countP_pos_iff.mp (by omega :
    0 < (lifeOfItem s.database wi).tries.countP WorkItemLife.Try.done)
  obtain ⟨q, hq, rfl⟩ := List.mem_map.mp hx
  obtain ⟨hqmem, hqk⟩ := List.mem_filter.mp hq
  unfold WorkLedger.committedRef
  cases hfind : s.database.attempts.rows.find? fun r => r.workKey = wi.workKey ∧ r.state = .committed with
  | none =>
    have hnot := List.find?_eq_none.mp hfind q hqmem
    exact absurd (decide_eq_true ⟨of_decide_eq_true hqk, of_decide_eq_true hxdone⟩) hnot
  | some r =>
    have hp : r.workKey = wi.workKey ∧ r.state = .committed := by
      have hfound := List.find?_some hfind
      exact of_decide_eq_true hfound
    obtain ⟨raw, hmade, href, stored, hget⟩ := h.results r (List.mem_of_find?_eq_some hfind) hp.2
    exact ⟨raw, stored, hp.1 ▸ hmade, href, hget, (ObjectStore.getBytes_ok.mp hget).2.2⟩

theorem Sound.neverClaimedAgain (hkey : ∀ raw, ObjectStore.isKey (hash raw))
    (h : Sound hash ledger (fun _ _ => True) s) : NeverClaimedAgain hash ledger s := by
  intro wi hwi hside hlive later
  have hmade : ∀ e ∈ later, MadeBy (fun _ _ => True) e := by
    intro e _
    cases e with
    | ensured now coordinates sideEffecting maxRetries => trivial
    | lived l => exact fun _ _ _ _ => trivial
  rcases run_held hkey later hmade h (fetchWorkItem_of_mem hwi) hside hlive with
    ⟨-, hids, wi', hitem, hst⟩ | ⟨hnone, hitem, hatts⟩
  · exact ⟨hids, wi', hitem, .inr hst, fun _ => hst⟩
  · refine ⟨congrArg (List.map AttemptRow.attemptId) hatts, wi, hitem, .inl rfl, ?_⟩
    rintro ⟨e, he, hrestarts⟩
    exact absurd hrestarts (hnone e he)

theorem Sound.claimableAgain (h : Sound hash ledger made s) (hids : AttemptIdsDistinct ledger.ids) :
    ClaimableAgain ledger s := by
  intro wi hwi hside hlive hleft c hover
  obtain ⟨ks, u, hrun, -⟩ := reclaimStale_evolves (fun _ _ _ => True) (c.now 0 0) none (fun _ _ _ _ => trivial) h.owned
  have hbody : onDatabase (reclaimStale (c.now 0 0)) s = (.ok ks, { s with database := u }) := by
    unfold onDatabase
    rw [hrun]
  have hmem := fetchWorkItem_of_mem hwi
  obtain ⟨att, hatt⟩ := live_of_inProgress h.atMostOneLive hmem hlive
  have hitem := reclaimStale_reclaims h.owned hrun (by rw [hatt]; rfl) hover
  have hreopened : reclaimedRow (c.now 0 0) wi = reopenRow (c.now 0 0) wi := by
    simp [reclaimedRow, reclaimTarget, hside, hleft, routedRow]
  rw [hmem, Option.map_some, hreopened] at hitem
  refine ⟨ks, { s with database := u }, tx_immortal hbody, hitem, ?_⟩
  intro now worker lease runId
  have hderived : IdsDerived ledger.ids u := h.derived.of_shape (reclaimStale_shape h.owned hrun).1
  obtain ⟨a, t, row, hclaim, -⟩ := claim_took hids hderived hitem rfl now lease worker runId
  exact ⟨a, t, hclaim⟩

end

/-- Crash safety. The history may end in a process that died before any of its writes, so this holds between any
    two writes of the database and the store: a result is in the store before its commit is. -/
theorem crash_safe (hash : β → String) (hkey : ∀ raw, ObjectStore.isKey (hash raw)) (ledger : Ledger)
    (hids : AttemptIdsDistinct ledger.ids) (events : List (Event ledger β)) :
    ResultsStored hash events (Run.run (step hash) emptyStores events) ∧
      NeverClaimedAgain hash ledger (Run.run (step hash) emptyStores events) ∧
      ClaimableAgain ledger (Run.run (step hash) emptyStores events) := by
  have hmade : ∀ e ∈ events, MadeBy (Executed events) e := by
    intro e he
    cases e with
    | ensured now coordinates sideEffecting maxRetries => trivial
    | lived l => exact fun turn item raw hraw => ⟨l, he, turn, item, rfl, hraw⟩
  have hsound := run_sound hkey events hmade sound_empty
  refine ⟨fun wi hwi hst => hsound.committedRef hwi hst, ?_, hsound.claimableAgain hids⟩
  exact Sound.neverClaimedAgain hkey (hsound.weaken fun _ _ _ => trivial)

/-- The digest of no bytes. -/
def emptyDigest : String := "e3b0c44298fc1c149afbf4c8996fb92427ae41e4649b934ca495991b7852b855"

/-- A worker that produces nothing, on a clock that stands at `now`. -/
def idleCoordinator (now : ℚ) : Coordinator (List UInt8) where
  ledger := sampleLedger
  now _ _ := now
  putBytes _ _ := ⟨emptyDigest, 0, 9⟩
  executor _ _ := .returned []

/-- The first process dies after its claim, and a second one starts past the lease. -/
def crashAndRestart : List (Event sampleLedger (List UInt8)) :=
  [.ensured 0 sampleItem false none, .lived ⟨idleCoordinator 1, rfl, some 2, 5, none, none⟩,
    .lived ⟨idleCoordinator 400, rfl, none, 5, none, none⟩]

example :
    (fetchWorkItem (Run.run (step fun _ => emptyDigest) emptyStores crashAndRestart).database "t1").map
      (fun wi => (wi.state, wi.retryCount)) = some (.committed, 1) := by
  decide +kernel

theorem crash_safe_restart :
    ResultsStored (fun _ => emptyDigest) crashAndRestart
        (Run.run (step fun _ => emptyDigest) emptyStores crashAndRestart) ∧
      NeverClaimedAgain (fun _ => emptyDigest) sampleLedger
        (Run.run (step fun _ => emptyDigest) emptyStores crashAndRestart) ∧
      ClaimableAgain sampleLedger (Run.run (step fun _ => emptyDigest) emptyStores crashAndRestart) :=
  crash_safe (fun _ => emptyDigest) (fun _ => by decide +kernel) sampleLedger plain_attemptIdsDistinct crashAndRestart

end Shapeflow.Coordinator.Crash
