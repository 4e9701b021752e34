import Shapeflow.ProviderSettle

set_option autoImplicit false

/-!
# Replays of a committed call

The first caller gets the reply as it was read; a replay gets what was stored,
and what was stored went through the redactor. The two agree when the redacted
text still parses to the value it was.
-/
namespace Shapeflow.ProviderServer
open Script Database Session ExternalCalls Py Table Run

/-- What is stored of a response. -/
def stored (svc : ProviderService) (payload : Json) : String := svc.redacted (svc.dumps payload)

/-- Parsing what is stored of a response gives the response back. -/
def Survives (svc : ProviderService) (payload : Json) : Prop :=
  ∃ back, loads svc.floats (stored svc payload).toList = some back ∧ SameValue back payload

/-! ## A bought call stays bought -/

theorem Bought.effect {l : ExternalCallLedger} {s t : Database} {call : Call} {h : AttemptHandle} {ref : String}
    (hb : Bought s h ref) (hi : Issued s call) (he : Effect l s call t) : Bought t h ref where
  calls := hb.calls.effect hi he
  row := by
    obtain ⟨r, hr, hra, hrc, hst, href⟩ := hb.row
    cases he with
    | idle _ hatts _ => exact ⟨r, hatts ▸ hr, hra, hrc, hst, href⟩
    | opened row _ _ _ hatts _ => exact ⟨r, hatts ▸ hr, hra, hrc, hst, href⟩
    | closed callId _ hatts _ => exact ⟨r, hatts ▸ hr, hra, hrc, hst, href⟩
    | begun c _ _ _ _ hatts _ => exact ⟨r, hatts ▸ List.mem_append_left _ hr, hra, hrc, hst, href⟩
    | moved q _ p hp hpid state cols hlegal hatts _ _ =>
      -- a committed attempt has no further transition, so another one moved
      have hne : r.attemptId ≠ q.attemptId := by
        intro heq
        have hpr : p = r := eq_of_key s.externalCallAttempts.sound.1 hp hr (hpid.trans heq.symm)
        rw [hpr, hst] at hlegal
        cases hlegal
      refine ⟨r, ?_, hra, hrc, hst, href⟩
      rw [hatts]
      exact mem_updated.mpr ⟨r, hr, by simp [hne]⟩

theorem Bought.of_same {s t : Database} {h : AttemptHandle} {ref : String} (hb : Bought s h ref)
    (hsame : sameTables s t) : Bought t h ref where
  calls := hb.calls.of_same (congrArg Table.rows hsame.1) (congrArg Table.rows hsame.2.1)
  row := by
    rw [hsame.2.1]
    exact hb.row

theorem Bought.run {l : ExternalCallLedger} {s : Database} {h : AttemptHandle} {ref : String} (hb : Bought s h ref)
    {calls : List Call} (hi : Allowed (ExternalCalls.step l) Issued s calls) :
    Bought (run (ExternalCalls.step l) s calls) h ref :=
  invariant (I := fun s => Bought s h ref)
    (fun s call hs hissued => Bought.effect hs hissued (step_effect l s call)) hb hi

/-- The response of a bought call is found under its reference. -/
theorem Bought.ref {s : Database} {h : AttemptHandle} {ref : String} (hb : Bought s h ref)
    (hne : h.attemptId ≠ "") : committedResponseRef s h.callId = some ref := by
  obtain ⟨r, hr, hra, hrc, hst, href⟩ := hb.row
  obtain ⟨c, hc, hcr⟩ := hb.calls.owned r hr
  have hnamed := hb.calls.named r hr hst c hc hcr
  have hcommitted : c.state = .committed := (hb.calls.bought c hc).mpr (by simp [hnamed])
  have hfind : (s.externalCalls.rows.find? fun q => q.callId = h.callId ∧ q.state = .committed) = some c := by
    cases hf : s.externalCalls.rows.find? fun q => q.callId = h.callId ∧ q.state = .committed with
    | none =>
      have hno := List.find?_eq_none.mp hf c hc
      simp [hcr, hrc, hcommitted] at hno
    | some d =>
      have hd := List.find?_some hf
      simp only [decide_eq_true_eq] at hd
      rw [eq_of_key s.externalCalls.sound (List.mem_of_find?_eq_some hf) hc (hd.1.trans (hrc.symm.trans hcr.symm))]
  have hfetch : fetchCallAttempt s h.attemptId = some r := hra ▸ fetchCallAttempt_of_mem hr
  unfold committedResponseRef
  rw [hfind]
  dsimp only
  rw [hnamed, hra]
  unfold responseRef
  dsimp only
  rw [if_neg hne, hfetch]
  exact href

/-! ## What the stored response comes back as -/

variable {svc : ProviderService}

/-- A replay of a call whose response is on file: what the file parses to, or a refusal. -/
theorem replayed_of_filed {t : ServiceState} {callId ref text : String}
    (href : committedResponseRef t.ledger.store callId = some ref)
    (hfile : ObjectStore.getBytes svc.sha256Hex t.objects ref = .ok text) :
    (∀ back, loads svc.floats text.toList = some back → replayed svc t callId = .ok (some ⟨200, back⟩)) ∧
      (loads svc.floats text.toList = none →
        replayed svc t callId = .error (unreadable callId "JSONDecodeError")) := by
  unfold replayed
  rw [href]
  dsimp only
  rw [hfile]
  constructor
  · intro back hback
    dsimp only
    rw [hback]
  · intro hnone
    dsimp only
    rw [hnone]

theorem getBytes_puts {objects : ObjectStore String} {ref text : String} (texts : List String)
    (h : ObjectStore.getBytes svc.sha256Hex objects ref = .ok text) :
    ObjectStore.getBytes svc.sha256Hex (texts.foldl (ObjectStore.putBytes svc.sha256Hex) objects) ref = .ok text := by
  induction texts generalizing objects with
  | nil => exact h
  | cons raw texts ih => exact ih (ObjectStore.getBytes_putBytes_mono raw h)

/-! ## What an answered purchase leaves behind -/

/-- The payload that was returned is on file, and the call is bought. -/
structure Filed (svc : ProviderService) (before : ObjectStore String) (u : ServiceState) (h : AttemptHandle)
    (payload : Json) : Prop where
  objects : u.objects = before.putBytes svc.sha256Hex (stored svc payload)
  bought : Bought u.ledger.store h (svc.sha256Hex (stored svc payload))

section
variable {t u : ServiceState} {h : AttemptHandle} {group : ReservationGroup} {answer : Answer}

theorem refuseTooLarge_raises {now : ℚ} {p : Provider} {callId message : String} {actuals : Amounts} :
    (refuseTooLarge svc now p callId h group actuals message : Handler Answer) t ≠ (.ok answer, u) := by
  intro hrun
  obtain ⟨_, _, -, hrun⟩ := bind_ok.mp hrun
  obtain ⟨_, _, -, hrun⟩ := bind_ok.mp hrun
  cases hrun

theorem freezeAndCommit_filed (hids : svc.budget.ids.Separated) (ht : OnItsWay svc t h group .sent)
    {clock : ℕ → ℚ} {p : Provider} {callId : String} {late actuals : Amounts} {payload : List (PyStr × Json)}
    {texts : ResponseTexts}
    (hrun : freezeAndCommit svc clock p callId h group late actuals payload texts t = (.ok answer, u)) :
    answer = ⟨200, .obj payload⟩ ∧ Filed svc t.objects u h (.obj payload) := by
  unfold freezeAndCommit at hrun
  by_cases hlarge : TooLarge svc payload
  · obtain ⟨message, hm⟩ := frozen_of_tooLarge hlarge
    rw [hm] at hrun
    exact absurd hrun refuseTooLarge_raises
  · rw [frozen_of_fits hlarge] at hrun
    by_cases hbind : texts.Bindable
    · obtain ⟨v, hv, -, hobjects, hbought⟩ := ht.bought hids (clock 4) (clock 5) (clock 6)
        (svc.dumps (.obj payload)) hbind actuals ⟨200, .obj payload⟩
      have heq := hv.symm.trans hrun
      cases heq
      exact ⟨rfl, hobjects, hbought⟩
    · obtain ⟨v, hkeep, -⟩ := ht.not_kept hids (clock 4) (svc.dumps (.obj payload)) (bind_of_not_bindable hbind)
      have heq := (bind_of_error hkeep).symm.trans hrun
      cases heq

theorem errorReply_status {now : ℚ} {p : Provider} {actuals : Amounts} {status : ℕ}
    (hrun : errorReply svc now p h group actuals status t = (.ok answer, u)) : answer.status = status := by
  obtain ⟨_, _, -, hrun⟩ := bind_ok.mp hrun
  obtain ⟨_, _, -, hrun⟩ := bind_ok.mp hrun
  cases hrun
  rfl

/-- After a success was noted the reply is read, frozen and committed. -/
theorem read_filed {α : Type} (hids : svc.budget.ids.Separated) (ht : OnItsWay svc t h group .sent) {q : Provider}
    {x : Except PyError α} {clock : ℕ → ℚ} {callId : String} {late : Amounts} {actuals : α → Amounts}
    {payload : List (PyStr × Json)} {texts : ResponseTexts}
    (hrun : (noteSuccess q >>= fun _ => python x >>= fun a =>
      freezeAndCommit svc clock q callId h group late (actuals a) payload texts) t = (.ok answer, u)) :
    answer = ⟨200, .obj payload⟩ ∧ Filed svc t.objects u h (.obj payload) := by
  obtain ⟨_, v, hnote, hrun⟩ := bind_ok.mp hrun
  cases hnote
  cases x with
  | error e => cases hrun
  | ok a => exact freezeAndCommit_filed hids (ht.noted_success q) hrun

theorem exaAnswered_filed (hids : svc.budget.ids.Separated) (ht : OnItsWay svc t h group .sent) {clock : ℕ → ℚ}
    {callId : String} {r : UpstreamReply} (hrun : exaAnswered svc clock callId h group r t = (.ok answer, u))
    (hstatus : answer.status = 200) : Filed svc t.objects u h answer.payload := by
  unfold exaAnswered at hrun
  split at hrun
  · rename_i hne
    exact absurd ((errorReply_status hrun).symm.trans hstatus) hne
  · obtain ⟨rfl, hfiled⟩ := read_filed hids ht hrun
    exact hfiled

theorem tavilyAnswered_filed (hids : svc.budget.ids.Separated) (ht : OnItsWay svc t h group .sent) {clock : ℕ → ℚ}
    {callId : String} {r : UpstreamReply} (hrun : tavilyAnswered svc clock callId h group r t = (.ok answer, u))
    (hstatus : answer.status = 200) : Filed svc t.objects u h answer.payload := by
  unfold tavilyAnswered at hrun
  split at hrun
  · rename_i hne
    exact absurd ((errorReply_status hrun).symm.trans hstatus) hne
  · obtain ⟨rfl, hfiled⟩ := read_filed hids ht hrun
    exact hfiled

theorem deepseekAnswered_filed (hids : svc.budget.ids.Separated) (ht : OnItsWay svc t h group .sent)
    {clock : ℕ → ℚ} {requestedModel : PyStr} {callId : String} {r : UpstreamReply}
    (hrun : deepseekAnswered svc clock requestedModel callId h group r t = (.ok answer, u))
    (hstatus : answer.status = 200) : Filed svc t.objects u h answer.payload := by
  unfold deepseekAnswered at hrun
  cases hactuals : deepseekActuals svc (usageOf r.payload) with
  | error e =>
    rw [hactuals] at hrun
    cases hrun
  | ok actuals =>
    rw [hactuals] at hrun
    change (if r.status ≠ 200 then _ else _ : Handler Answer) t = _ at hrun
    split at hrun
    · rename_i hne
      exact absurd ((errorReply_status hrun).symm.trans hstatus) hne
    · obtain ⟨_, v, hnote, hrun⟩ := bind_ok.mp hrun
      cases hnote
      obtain ⟨rfl, hfiled⟩ := freezeAndCommit_filed hids (ht.noted_success .deepseek) hrun
      exact hfiled

end

/-! ## The request that bought the call -/

def Provider.offer (svc : ProviderService) (clock : ℕ → ℚ) (body : List (PyStr × Json)) :
    Provider → Except ProviderError Purchase
  | .exa => exaOffer svc clock body
  | .tavily => tavilyOffer svc clock body
  | .deepseek => deepseekOffer svc clock body

/-- What the id of a call is made of. -/
def Purchase.identity (p : Purchase) : Provider × String × PyStr × PyStr :=
  (p.provider, p.opClass, p.workKey, p.callKey)

section
variable {t u : ServiceState} {h : AttemptHandle} {answer : Answer} {clock : ℕ → ℚ}
  {body : List (PyStr × Json)} {reply : Upstream}

theorem serve_sold (svc : ProviderService) (clock : ℕ → ℚ) (body : List (PyStr × Json)) (reply : Upstream)
    (p : Provider) : ∃ missing, p.serve svc clock body reply =
    sold svc clock p missing (p.offer svc clock body) reply := by
  cases p <;> exact ⟨_, rfl⟩

theorem offer_provider {p : Provider} {purchase : Purchase} (hoffer : p.offer svc clock body = .ok purchase) :
    purchase.provider = p := by
  cases p with
  | exa =>
    obtain ⟨_, -, hrest⟩ := except_bind_eq_ok.mp hoffer
    split at hrest
    · cases hrest
    · cases hrest
      rfl
  | tavily =>
    obtain ⟨_, -, hrest⟩ := except_bind_eq_ok.mp hoffer
    obtain ⟨_, -, hrest⟩ := except_bind_eq_ok.mp hrest
    split at hrest
    · cases hrest
    · cases hrest
      rfl
  | deepseek =>
    obtain ⟨_, -, hrest⟩ := except_bind_eq_ok.mp hoffer
    obtain ⟨_, -, hrest⟩ := except_bind_eq_ok.mp hrest
    dsimp only at hrest
    split at hrest
    · cases hrest
    · split at hrest
      · cases hrest
      · cases hrest
        rfl

/-- A reply that is answered with 200 is on file, and what it answers was dispatched. -/
theorem offer_filed (hids : svc.budget.ids.Separated) {p : Provider} {purchase : Purchase}
    (hoffer : p.offer svc clock body = .ok purchase) {group : ReservationGroup}
    (ht : OnItsWay svc t h group .sent) {callId : String} {r : UpstreamReply}
    (hrun : purchase.answered callId h group r t = (.ok answer, u)) (hstatus : answer.status = 200) :
    u.dispatched = [h] ∧ Filed svc t.objects u h answer.payload := by
  cases p with
  | exa =>
    rw [exaOffer_answered hoffer] at hrun
    have hend := exaAnswered_settles hids ht clock callId r
    rw [after_of_ok hrun] at hend
    exact ⟨hend.1, exaAnswered_filed hids ht hrun hstatus⟩
  | tavily =>
    rw [tavilyOffer_answered hoffer] at hrun
    have hend := tavilyAnswered_settles hids ht clock callId r
    rw [after_of_ok hrun] at hend
    exact ⟨hend.1, tavilyAnswered_filed hids ht hrun hstatus⟩
  | deepseek =>
    rw [deepseekOffer_answered hoffer] at hrun
    have hend := deepseekAnswered_settles hids ht clock (textOf svc body "model") callId r
    rw [after_of_ok hrun] at hend
    exact ⟨hend.1, deepseekAnswered_filed hids ht hrun hstatus⟩

theorem lostContact_raises {now : ℚ} {group : ReservationGroup} {name error : String} :
    (lostContact svc now h group name error : Handler Answer) t ≠ (.ok answer, u) := by
  intro hrun
  obtain ⟨_, _, -, hrun⟩ := bind_ok.mp hrun
  cases hrun

theorem OnItsWay.named (hids : svc.budget.ids.Separated) {group : ReservationGroup} {state : CallAttemptState}
    (ht : OnItsWay svc t h group state) : h.attemptId ≠ "" := by
  obtain ⟨r, hr, hrh, -⟩ := ht.flying.row
  obtain ⟨⟨c, n, hid⟩, -⟩ := ht.flying.money.attemptIds r hr
  rw [← hrh, hid]
  exact hids.attempt_ne_empty c n

/-- A request that was answered with 200 and went upstream has bought the call its offer names. -/
theorem serve_filed (hids : svc.budget.ids.Separated) (ht : Ready svc t) {p : Provider}
    (hrun : p.serve svc clock body reply t = (.ok answer, u)) (hstatus : answer.status = 200)
    (hsent : u.dispatched = [h]) :
    svc.hasKey p = true ∧ ∃ purchase callKey workKey before, p.offer svc clock body = .ok purchase ∧
      encode purchase.callKey = .ok callKey ∧ bindOptional purchase.workKey = .ok workKey ∧
      h.callId = callIdFor svc p.name purchase.opClass callKey workKey ∧ h.attemptId ≠ "" ∧
      (ObjectStore.Intact svc.sha256Hex t.objects → ObjectStore.Intact svc.sha256Hex before) ∧
      Filed svc before u h answer.payload := by
  obtain ⟨missing, hserve⟩ := serve_sold svc clock body reply p
  rw [hserve] at hrun
  unfold sold at hrun
  split at hrun
  · cases hrun
  · rename_i hkey
    obtain ⟨_, v, hclosed, hrest⟩ := bind_ok.mp hrun
    have hvt : v = t := (after_of_ok hclosed).symm.trans (pure_requireClosed p t)
    subst hvt
    cases hoffer : p.offer svc clock body with
    | error e =>
      rw [hoffer] at hrest
      cases hrest
    | ok purchase =>
      rw [hoffer] at hrest
      dsimp only at hrest
      rcases buy_cases hids ht clock purchase reply with hidle | ⟨callKey, workKey, q, g, z, hck, hwk, hcall, hz, hobjects, hbuy⟩
      · rw [after_of_ok hrest, hsent] at hidle
        cases hidle
      · rw [hbuy] at hrest
        cases reply with
        | error e => exact absurd hrest lostContact_raises
        | ok r =>
          obtain ⟨hdone, hfiled⟩ := offer_filed hids hoffer hz hrest hstatus
          have hqh : q = h := by
            rw [hdone] at hsent
            exact List.singleton_inj.mp hsent
          subst hqh
          rw [offer_provider hoffer] at hcall
          refine ⟨not_not.mp hkey, purchase, callKey, workKey, z.objects, rfl, hck, hwk, hcall, hz.named hids, ?_,
            hfiled⟩
          intro hintact
          rw [hobjects]
          exact ObjectStore.intact_putBytes hintact _

/-! ## The request that replays it -/

/-- What may have happened to the ledger and the object store since: ledger calls by callers that use
    handles they were given, each cut short anywhere, and objects put. -/
structure Later (svc : ProviderService) (u v : ServiceState) : Prop where
  ledger : ∃ calls, Allowed (ExternalCalls.step svc.calls) Issued u.ledger.store calls ∧
    sameTables (run (ExternalCalls.step svc.calls) u.ledger.store calls) v.ledger.store
  objects : ∃ texts : List String, v.objects = texts.foldl (ObjectStore.putBytes svc.sha256Hex) u.objects

/-- The breaker of the provider lets a request in. -/
def Admits (svc : ProviderService) (p : Provider) (t : ServiceState) : Prop :=
  requireBreakerClosed svc.config.maxConsecutiveFailures t.ledger.store p (t.consecutiveFailures p) = .ok ()

instance (svc : ProviderService) (p : Provider) (t : ServiceState) : Decidable (Admits svc p t) :=
  inferInstanceAs (Decidable (_ = _))

theorem requireClosed_admitted {p : Provider} (ht : Admits svc p t) : requireClosed svc p t = (.ok (), t) := by
  unfold requireClosed
  rw [getStore_bind]
  unfold Admits at ht
  rw [ht]
  rfl

theorem requireClosed_refused {p : Provider} (ht : ¬ Admits svc p t) :
    ∃ e, requireClosed svc p t = (.error (.refused e), t) := by
  unfold requireClosed
  rw [getStore_bind]
  unfold Admits at ht
  cases h : requireBreakerClosed svc.config.maxConsecutiveFailures t.ledger.store p (t.consecutiveFailures p) with
  | error e => exact ⟨e, rfl⟩
  | ok _ => exact absurd h ht

/-- With the response on file, an admitted request for the call gets what the file parses to. -/
theorem buy_replays (clock : ℕ → ℚ) (reply : Upstream) {v : ServiceState} {purchase : Purchase} {callKey ref text : String} {workKey : Option String}
    (halive : v.ledger.life = none) (hck : encode purchase.callKey = .ok callKey)
    (hwk : bindOptional purchase.workKey = .ok workKey)
    (hcall : h.callId = callIdFor svc purchase.provider.name purchase.opClass callKey workKey)
    (hne : h.attemptId ≠ "") (hbought : Bought v.ledger.store h ref)
    (hfile : ObjectStore.getBytes svc.sha256Hex v.objects ref = .ok text) :
    ∃ l, (∀ back, loads svc.floats text.toList = some back →
        buy svc clock purchase reply v = (.ok ⟨200, back⟩, { v with ledger := l })) ∧
      (loads svc.floats text.toList = none → buy svc clock purchase reply v =
        (.error (.refused (unreadable h.callId "JSONDecodeError")), { v with ledger := l })) := by
  obtain ⟨l, hbuy, -, heffect⟩ := buy_opens halive clock purchase reply hck hwk
  have hissued : Issued v.ledger.store
      ⟨clock 0, none, .openCall purchase.provider.name purchase.opClass callKey workKey⟩ := trivial
  have href := (hbought.effect hissued heffect).ref hne
  obtain ⟨hparsed, hgarbled⟩ := replayed_of_filed (t := { v with ledger := l }) href hfile
  rw [← hcall] at hbuy
  refine ⟨l, ?_, ?_⟩
  · intro back hback
    rw [hbuy]
    unfold answerOrBuy
    rw [getStore_bind, hparsed back hback]
    rfl
  · intro hnone
    rw [hbuy]
    unfold answerOrBuy
    rw [getStore_bind, hgarbled hnone]
    rfl

end

/-- A response in which the redactor finds nothing comes back as it was. -/
theorem survives_of_clean {svc : ProviderService} {payload : Json} (hloaded : Loaded svc.floats payload)
    (hclean : svc.redactor.IsClean (Py.dumps svc.floats payload)) : Survives svc payload := by
  refine ⟨sortKeys payload, ?_, sameValue_sortKeys payload⟩
  unfold stored ProviderService.redacted ProviderService.dumps
  rw [String.toList_ofList, String.toList_ofList, hclean]
  exact loads_dumps hloaded

/-! ## A response that the redactor changes -/

/-- A service whose hash tells one text from all others. -/
def filing (text : String) : ProviderService :=
  { sampleService with
    sha256Hex := fun other =>
      if other = text then "aaaaaaaaaaaaaaaaaaaaaaaaaaaaaaaaaaaaaaaaaaaaaaaaaaaaaaaaaaaaaaaa"
      else "bbbbbbbbbbbbbbbbbbbbbbbbbbbbbbbbbbbbbbbbbbbbbbbbbbbbbbbbbbbbbbbb" }

theorem filing_keys (text other : String) : ObjectStore.isKey ((filing text).sha256Hex other) := by
  change ObjectStore.isKey (if other = text then _ else _)
  split <;> decide +kernel

theorem filing_free {text old : String} (h : (filing text).sha256Hex old = (filing text).sha256Hex text) :
    old = text := by
  by_contra hne
  revert h
  simp [filing, hne]

/-- A search served at the clock readings 0, 1, 2 and so on. -/
def searchedWith (svc : ProviderService) (reply : Upstream) (t : ServiceState) : Except Failure Answer × ServiceState :=
  Provider.tavily.serve svc (fun n => n) searchBody reply t

/-- The state the next request finds. -/
def nextRequest (t : ServiceState) : ServiceState := { t with dispatched := [] }

theorem later_nextRequest (svc : ProviderService) (t : ServiceState) : Later svc t (nextRequest t) :=
  ⟨⟨[], trivial, rfl, rfl, rfl⟩, [], rfl⟩

def isEmptyAnswer : Except Failure Answer → Bool
  | .ok ⟨200, .obj []⟩ => true
  | _ => false

theorem eq_of_isEmptyAnswer {r : Except Failure Answer} (h : isEmptyAnswer r = true) :
    r = .ok ⟨200, .obj []⟩ := by
  unfold isEmptyAnswer at h
  split at h
  · rfl
  · cases h

/-- The service of a search whose reply is empty, and the state that search leaves. -/
def emptyFiling : ProviderService := filing "\x7b\x7d"

def emptySearched : ServiceState := (searchedWith emptyFiling (.ok ⟨200, [], 1⟩) (fundedState emptyFiling)).2

/-- The status and the text of an answer. -/
def answerText (svc : ProviderService) : Except Failure Answer → Option (ℕ × List Char)
  | .ok answer => some (answer.status, Py.dumps svc.floats answer.payload)
  | .error _ => none

theorem exists_of_answerText {svc : ProviderService} {r : Except Failure Answer} {status : ℕ} {text : List Char}
    (h : answerText svc r = some (status, text)) :
    ∃ payload, r = .ok ⟨status, payload⟩ ∧ Py.dumps svc.floats payload = text := by
  cases r with
  | error e => cases h
  | ok answer =>
    cases h
    exact ⟨answer.payload, rfl, rfl⟩

/-- A reply with a link that carries a credential in its query. -/
def linkReply : Upstream := .ok ⟨200, [(pyStr "url", .str (pyStr "https://x.example/?token=abcdefgh12"))], 1⟩

/-- The text of the reply, and what is stored of it. -/
def linkText : List Char := Py.dumps sampleService.floats (.obj [(pyStr "url", .str (pyStr "https://x.example/?token=abcdefgh12"))])

def linkFiling : ProviderService := filing (String.ofList (sampleService.redactor.redact linkText))

def linkSearched : ServiceState := (searchedWith linkFiling linkReply (fundedState linkFiling)).2

end Shapeflow.ProviderServer
