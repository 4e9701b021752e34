import Shapeflow.Fallible
import Shapeflow.ProviderHandlers

set_option autoImplicit false

/-!
# Which replies leave a dispatched attempt unsettled

Every exit of the four routes after the dispatch either ends the attempt and
settles its money, or is a raise that nothing catches. The raises come from
reading the reply: its cost, its counts, its texts. Which replies raise is
spelled out route by route, and for those and no others the attempt is left in
flight with its reservation held.
-/
namespace Shapeflow.ProviderServer
open Script Database Session ExternalCalls Py Table Run

/-- The attempt is over and none of its reservations is still held. -/
def Settled (s : Database) (h : AttemptHandle) : Prop :=
  (∃ r ∈ s.externalCallAttempts.rows, r.attemptId = h.attemptId ∧ r.state ∈ attemptTerminal) ∧
    ∀ r ∈ reservationsOf s h.attemptId, r.state ≠ .reserved

instance (s : Database) (h : AttemptHandle) : Decidable (Settled s h) := inferInstanceAs (Decidable (_ ∧ _))

/-! ## Which replies can be read -/

/-- Small enough to round to a float. -/
def FitsFloat : Json → Prop
  | .int n => n.natAbs < floatOverflow
  | _ => True

/-- `float(v or 0)` does not raise. -/
def CountsAsFloat (text : PyText) : Json → Prop
  | .int n => n.natAbs < floatOverflow
  | .str s => s = [] ∨ text.floatOf s ≠ none
  | .arr items => items = []
  | .obj members => members = []
  | .null | .bool _ | .float _ => True

/-- `int(v or 0)` does not raise. -/
def CountsAsInt (text : PyText) : Json → Prop
  | .float (.finite _) => True
  | .float _ => False
  | .str s => s = [] ∨ text.intOf s ≠ none
  | .arr items => items = []
  | .obj members => members = []
  | .null | .bool _ | .int _ => True

/-- No infinite count of cached tokens. -/
def FiniteCached (usage : List (PyStr × Json)) : Prop :=
  ∀ details, memberD usage (pyStr "prompt_tokens_details") .null = .obj details →
    memberD details (pyStr "cached_tokens") .null ≠ .float .infinity ∧
      memberD details (pyStr "cached_tokens") .null ≠ .float .negInfinity

/-- The first choice, where there is one, is a dictionary. -/
def FirstChoiceIsObject (payload : List (PyStr × Json)) : Prop :=
  match member payload (pyStr "choices") with
  | some (.arr (v :: _)) => ∃ members, v = .obj members
  | some (.str s) => s = []
  | _ => True

def TooLarge (svc : ProviderService) (payload : List (PyStr × Json)) : Prop :=
  svc.config.maxFrozenResponseBytes ≠ 0 ∧
    svc.config.maxFrozenResponseBytes < (svc.dumps (.obj payload)).utf8ByteSize

/-- `payload.get("costDollars", {}) or {}` -/
def costOf (payload : List (PyStr × Json)) : Json :=
  (memberD payload (pyStr "costDollars") (.obj [])).orElse (.obj [])

def ExaReadable (svc : ProviderService) (r : UpstreamReply) : Prop :=
  r.status ≠ 200 ∨
    (∃ cost, costOf r.payload = .obj cost ∧ FitsFloat (memberD cost (pyStr "total") .null)) ∧
      (TooLarge svc r.payload ∨ Encodable (textOf svc r.payload "requestId"))

def TavilyReadable (svc : ProviderService) (r : UpstreamReply) : Prop :=
  r.status ≠ 200 ∨
    (∃ usage, memberD r.payload (pyStr "usage") (.obj []) = .obj usage ∧
      FitsFloat (memberD usage (pyStr "credits") .null)) ∧
      (TooLarge svc r.payload ∨ Encodable (textOf svc r.payload "request_id"))

/-- The counts are read before the status is looked at. -/
def DeepseekReadable (svc : ProviderService) (requestedModel : PyStr) (r : UpstreamReply) : Prop :=
  (∃ usage, usageOf r.payload = .obj usage ∧
    ∀ key ∈ ["prompt_tokens", "completion_tokens", "prompt_cache_hit_tokens"],
      CountsAsFloat svc.text (memberD usage (pyStr key) (.int 0))) ∧
    (r.status ≠ 200 ∨ TooLarge svc r.payload ∨
      Encodable requestedModel ∧
        ∀ key ∈ ["id", "model", "system_fingerprint"], Encodable (textOf svc r.payload key))

def ChatReadable (svc : ProviderService) (requestedModel : PyStr) (r : UpstreamReply) : Prop :=
  (∃ usage, usageOf r.payload = .obj usage ∧
    (∀ key ∈ ["prompt_tokens", "completion_tokens"],
      CountsAsInt svc.text (memberD usage (pyStr key) (.int 0))) ∧ FiniteCached usage) ∧
    FirstChoiceIsObject r.payload ∧
    (r.status ≠ 200 ∨ Encodable requestedModel ∧ Encodable (textOf svc r.payload "model"))

inductive Route
  | paid (p : Provider)
  | chat (cellToken : PyStr)

def Route.serve (svc : ProviderService) (clock : ℕ → ℚ) (body : List (PyStr × Json)) (reply : Upstream) :
    Route → Handler Answer
  | .paid p => p.serve svc clock body reply
  | .chat cellToken => chatCompletions svc clock body cellToken reply

/-- The reply reads through to the end of the route; one that never came does. -/
def Route.Readable (svc : ProviderService) (body : List (PyStr × Json)) (route : Route) : Upstream → Prop
  | .error _ => True
  | .ok r =>
    match route with
    | .paid .exa => ExaReadable svc r
    | .paid .tavily => TavilyReadable svc r
    | .paid .deepseek => DeepseekReadable svc (textOf svc body "model") r
    | .chat _ => ChatReadable svc (textOf svc body "model") r

/-! ## An attempt in flight -/

/-- The attempt is live in `state`, nothing else of its call has committed, and `group` is its group. -/
structure InFlight (l : ExternalCallLedger) (s : Database) (h : AttemptHandle) (group : ReservationGroup)
    (state : CallAttemptState) : Prop where
  calls : CallsSound s
  money : MoneySound l s
  row : ∃ r ∈ s.externalCallAttempts.rows, r.attemptId = h.attemptId ∧ r.callId = h.callId ∧ r.state = state
  held : state ∈ heldStates
  unbought : ∀ q ∈ s.externalCallAttempts.rows, q.callId = h.callId → q.state ≠ .committed
  its : group.groupId = h.attemptId

theorem InFlight.not_settled {l : ExternalCallLedger} {s : Database} {h : AttemptHandle}
    {group : ReservationGroup} {state : CallAttemptState} (hf : InFlight l s h group state) : ¬ Settled s h := by
  rintro ⟨⟨q, hq, hqh, hover⟩, -⟩
  obtain ⟨r, hr, hrh, -, rfl⟩ := hf.row
  rw [eq_of_key s.externalCallAttempts.sound.1 hq hr (hqh.trans hrh.symm)] at hover
  exact ((mem_heldStates r.state).mp hf.held).1 hover

theorem settled_congr {s t : Database} (hsame : sameTables s t) (h : AttemptHandle) :
    Settled t h ↔ Settled s h := by
  unfold Settled
  rw [hsame.2.1, reservationsOf_congr (congrArg Table.rows hsame.2.2)]

theorem InFlight.of_same {l : ExternalCallLedger} (hids : l.budget.ids.Separated) {s t : Database}
    {h : AttemptHandle} {group : ReservationGroup} {state : CallAttemptState}
    (hf : InFlight l s h group state) (hsame : sameTables s t) : InFlight l t h group state where
  calls := hf.calls.of_same (congrArg Table.rows hsame.1) (congrArg Table.rows hsame.2.1)
  money := hf.money.effect hids (show Issued s ⟨0, none, .closeCall "" ""⟩ from trivial) trivial trivial
    ((Effect.refl l s _).of_same hsame)
  row := by
    rw [hsame.2.1]
    exact hf.row
  held := hf.held
  unbought := by
    rw [hsame.2.1]
    exact hf.unbought
  its := hf.its

theorem advanced_unbought {s : Database} {a c : String} {state : CallAttemptState} {cols : List AttemptColumn}
    (hne : state ≠ .committed) (h : ∀ q ∈ s.externalCallAttempts.rows, q.callId = c → q.state ≠ .committed) :
    ∀ q ∈ attemptsAdvanced s a state cols, q.callId = c → q.state ≠ .committed := by
  intro q hq
  obtain ⟨p, hp, rfl⟩ := mem_updated.mp hq
  split
  · intro _
    rw [advancedRow_state]
    exact hne
  · exact h p hp

/-- From one state of a sent attempt to the next. -/
theorem InFlight.advance_run {l : ExternalCallLedger} (hids : l.budget.ids.Separated) (now : ℚ) {s : Database}
    {h : AttemptHandle} {group : ReservationGroup} {state : CallAttemptState} (next : CallAttemptState)
    (cols : List AttemptColumn) (hf : InFlight l s h group state) (hlegal : next ∈ legalAttempt state)
    (hnext : next ∈ attemptSentStates) :
    ∃ t, tx (advanceIn now h next cols) ⟨s, none⟩ = (.ok (), ⟨t, none⟩) ∧ InFlight l t h group next ∧
      t.externalCallAttempts.rows = attemptsAdvanced s h.attemptId next cols := by
  obtain ⟨r, hr, hrh, hrc, rfl⟩ := hf.row
  have hne : next ≠ .committed := by
    rintro rfl
    simp [attemptSentStates] at hnext
  obtain ⟨t, hadv⟩ := advanceIn_run now cols hr hrh hlegal fun h => absurd h hne
  obtain ⟨-, hatts, -, hres⟩ := advanceIn_ok hadv
  have hissued : Issued s ⟨now, none, .validate ⟨h.callId, h.attemptId, r.attemptOrdinal⟩⟩ :=
    ⟨r, hr, hrh, hrc, rfl⟩
  have heffect : Effect l s ⟨now, none, .validate ⟨h.callId, h.attemptId, r.attemptOrdinal⟩⟩ t :=
    effect_advanced (h := ⟨h.callId, h.attemptId, r.attemptOrdinal⟩) rfl rfl rfl hadv
      fun hsame => .kept hnext (congrArg Table.rows hsame)
  refine ⟨t, tx_immortal hadv, ⟨hf.calls.effect hissued heffect,
    hf.money.effect hids hissued trivial trivial heffect, ?_, List.mem_cons_of_mem _ hnext, ?_, hf.its⟩, hatts⟩
  · refine ⟨advancedRow next cols r, ?_, ?_, ?_, ?_⟩
    · rw [hatts]
      exact mem_updated.mpr ⟨r, hr, by simp [hrh]⟩
    · simpa using hrh
    · simpa using hrc
    · simp
  · rw [hatts]
    exact advanced_unbought hne hf.unbought

/-- Ending a sent attempt with its group settles it. -/
theorem InFlight.end_run {l : ExternalCallLedger} (hids : l.budget.ids.Separated) (now : ℚ) {s : Database}
    {h : AttemptHandle} {group : ReservationGroup} {state : CallAttemptState} (final : CallAttemptState) (mode : Mode)
    (cols : List AttemptColumn) (hf : InFlight l s h group state) (hlegal : final ∈ legalAttempt state)
    (hfinal : final ∈ attemptTerminal) :
    ∃ t, settleAndAdvance l now h final (some group) mode cols ⟨s, none⟩ = (.ok (), ⟨t, none⟩) ∧
      Settled t h ∧ CallsSound t ∧
      t.externalCallAttempts.rows = attemptsAdvanced s h.attemptId final (.settledAt now :: cols) := by
  obtain ⟨r, hr, hrh, hrc, rfl⟩ := hf.row
  obtain ⟨t, hrun, hatts, hcalls, hres⟩ := settleAndAdvance_run l now (some group) mode cols hr hrh hlegal
    fun _ q hq hqr => hf.unbought q hq (hqr.trans hrc)
  have hheld := ((hf.money.coupled r hr).2.1 hf.held).1
  have hgroup : group = ⟨r.attemptId, group.amounts⟩ := by
    rw [hrh, ← hf.its]
  rw [hgroup] at hres
  have hrows := hres.trans (hf.money.resolved_rows hids hr hheld now group.amounts mode.charge)
  refine ⟨t, hrun, ⟨⟨advancedRow final (.settledAt now :: cols) r, ?_, ?_, ?_⟩, ?_⟩, ?_, hatts⟩
  · rw [hatts]
    exact mem_updated.mpr ⟨r, hr, by simp [hrh]⟩
  · simpa using hrh
  · simpa using hfinal
  · rw [← hrh]
    exact (reservationsOf_settled hrows).1
  · rw [← hrh] at hatts hcalls
    rw [← hrc] at hcalls
    exact hf.calls.advanced hr hlegal hatts hcalls

/-! ## A request on its way -/

theorem onLedger_of_ok {α : Type} {x : Proc α} {t : ServiceState} {a : α} {l : Session Database}
    (h : x t.ledger = (.ok a, l)) : onLedger x t = (.ok a, { t with ledger := l }) := by
  simp only [onLedger, h]

theorem onLedger_of_error {α : Type} {x : Proc α} {t : ServiceState} {e : Stopped Raised}
    {l : Session Database} (h : x t.ledger = (.error e, l)) :
    onLedger x t = (.error (.ledger e), { t with ledger := l }) := by
  simp only [onLedger, h]

/-- The one attempt the request has dispatched is in flight. -/
structure OnItsWay (svc : ProviderService) (t : ServiceState) (h : AttemptHandle) (group : ReservationGroup)
    (state : CallAttemptState) : Prop where
  only : t.dispatched = [h]
  alive : t.ledger.life = none
  flying : InFlight svc.calls t.ledger.store h group state

/-- What the request dispatched is settled, if the condition holds, and not otherwise. -/
def SettledWhen (condition : Prop) (h : AttemptHandle) (t : ServiceState) : Prop :=
  t.dispatched = [h] ∧ (Settled t.ledger.store h ↔ condition)

theorem ledger_of_alive {t : ServiceState} (h : t.ledger.life = none) : t.ledger = ⟨t.ledger.store, none⟩ := by
  rw [← h]

section
variable {svc : ProviderService} {t : ServiceState} {h : AttemptHandle} {group : ReservationGroup}
  {state : CallAttemptState}

theorem OnItsWay.raised (ht : OnItsWay svc t h group state) {condition : Prop} (hno : ¬ condition) :
    SettledWhen condition h t :=
  ⟨ht.only, iff_of_false ht.flying.not_settled hno⟩

theorem SettledWhen.of_true {condition : Prop} (hs : SettledWhen True h t) (hyes : condition) :
    SettledWhen condition h t :=
  ⟨hs.1, iff_of_true (hs.2.mpr trivial) hyes⟩

theorem OnItsWay.ended (hids : svc.budget.ids.Separated) (ht : OnItsWay svc t h group state) (now : ℚ)
    (final : CallAttemptState) (mode : Mode) (cols : List AttemptColumn) (hlegal : final ∈ legalAttempt state)
    (hfinal : final ∈ attemptTerminal) :
    ∃ l, onLedger (settleAndAdvance svc.calls now h final (some group) mode cols) t =
        (.ok (), { t with ledger := l }) ∧
      SettledWhen True h { t with ledger := l } ∧ CallsSound l.store ∧
      l.store.externalCallAttempts.rows =
        attemptsAdvanced t.ledger.store h.attemptId final (.settledAt now :: cols) := by
  obtain ⟨s, hrun, hset, hcalls, hatts⟩ := ht.flying.end_run hids now final mode cols hlegal hfinal
  rw [← ledger_of_alive ht.alive] at hrun
  exact ⟨_, onLedger_of_ok hrun, ⟨ht.only, iff_of_true hset trivial⟩, hcalls, hatts⟩

theorem storeText_run (svc : ProviderService) (now : ℚ) (h : AttemptHandle) (kind text : String)
    (s : Database) : ∃ ref u, storeText svc.calls now h kind text ⟨s, none⟩ = (.ok ref, ⟨u, none⟩) ∧
      ref.key = svc.sha256Hex (svc.redacted text) ∧ sameTables s u := by
  obtain ⟨u, hput, -⟩ := Slot.insertOrIgnore_run (ε := Raised) artifactsSlot
    ⟨svc.sha256Hex (svc.redacted text), kind, (svc.redacted text).utf8ByteSize,
      svc.compressedSize (svc.redacted text), some h.callId, now⟩ s
  have hreg : WorkLedger.registerArtifact now (svc.sha256Hex (svc.redacted text)) kind
      (svc.redacted text).utf8ByteSize (svc.compressedSize (svc.redacted text)) (some h.callId) s =
      (.ok (), u) := transaction_of_ok hput
  exact ⟨_, u, bind_of_ok (tx_immortal hreg), rfl, registerArtifact_same hreg⟩

theorem OnItsWay.stored (hids : svc.budget.ids.Separated) (ht : OnItsWay svc t h group state) (now : ℚ)
    (kind text : String) : ∃ ref u, onLedger (storeText svc.calls now h kind text) t = (.ok ref, u) ∧
      OnItsWay svc u h group state := by
  obtain ⟨ref, s, hrun, -, hsame⟩ := storeText_run svc now h kind text t.ledger.store
  rw [← ledger_of_alive ht.alive] at hrun
  exact ⟨ref, _, onLedger_of_ok hrun, ht.only, rfl, ht.flying.of_same hids hsame⟩

theorem OnItsWay.advanced (hids : svc.budget.ids.Separated) (ht : OnItsWay svc t h group state) (now : ℚ)
    (next : CallAttemptState) (cols : List AttemptColumn) (hlegal : next ∈ legalAttempt state)
    (hnext : next ∈ attemptSentStates) :
    ∃ l, onLedger (tx (advanceIn now h next cols)) t = (.ok (), { t with ledger := l }) ∧
      OnItsWay svc { t with ledger := l } h group next ∧
      l.store.externalCallAttempts.rows = attemptsAdvanced t.ledger.store h.attemptId next cols := by
  obtain ⟨s, hrun, hfly, hatts⟩ := ht.flying.advance_run hids now next cols hlegal hnext
  rw [← ledger_of_alive ht.alive] at hrun
  exact ⟨_, onLedger_of_ok hrun, ⟨ht.only, rfl, hfly⟩, hatts⟩

/-- A response whose texts the database takes is stored. -/
theorem OnItsWay.kept (hids : svc.budget.ids.Separated) (ht : OnItsWay svc t h group .sent) (now : ℚ)
    (text : String) {texts : ResponseTexts} {fields : ResponseFields} (hbind : texts.bind = .ok fields) :
    ∃ u, keepResponse svc now h text texts t = (.ok (), u) ∧ OnItsWay svc u h group .responseStored ∧
      u.objects = t.objects.putBytes svc.sha256Hex (svc.redacted text) ∧
      ∃ r ∈ u.ledger.store.externalCallAttempts.rows, r.attemptId = h.attemptId ∧ r.callId = h.callId ∧
        r.responseObjectRef = some (svc.sha256Hex (svc.redacted text)) := by
  obtain ⟨ref, s, hrun, hkey, hsame⟩ := storeText_run svc now h "external_response" text t.ledger.store
  have hfly := ht.flying.of_same hids hsame
  obtain ⟨m, hadv, hnext, hatts⟩ := hfly.advance_run hids now .responseStored
    [.responseObjectRef ref.key, .providerRequestId fields.providerRequestId,
      .requestedModel fields.requestedModel, .returnedModel fields.returnedModel,
      .systemFingerprint fields.systemFingerprint, .usageJson fields.usageJson,
      .telemetryJson fields.telemetryJson, .responseEndAt fields.responseEndAt]
    (by simp [legalAttempt]) (by simp [attemptSentStates])
  have hstore : storeResponse svc.calls now h text fields t.ledger = (.ok (), ⟨m, none⟩) := by
    rw [ledger_of_alive ht.alive]
    exact (bind_of_ok hrun).trans hadv
  refine ⟨{ t with
    objects := t.objects.putBytes svc.sha256Hex (svc.redacted text), ledger := ⟨m, none⟩ }, ?_,
    ⟨ht.only, rfl, hnext⟩, rfl, ?_⟩
  · unfold keepResponse
    rw [hbind]
    exact (bind_of_ok (x := putObject svc text) rfl).trans (onLedger_of_ok hstore)
  · obtain ⟨r, hr, hrh, hrc, -⟩ := hfly.row
    refine ⟨_, (congrArg (_ ∈ ·) hatts).mpr (mem_updated.mpr ⟨r, hr, rfl⟩), ?_⟩
    rw [if_pos (decide_eq_true hrh), ← hkey]
    exact ⟨by simpa using hrh, by simpa using hrc, rfl⟩

/-- One whose texts it does not take raises with the attempt as it was. -/
theorem OnItsWay.not_kept (hids : svc.budget.ids.Separated) (ht : OnItsWay svc t h group .sent) (now : ℚ)
    (text : String) {texts : ResponseTexts} {e : PyError} (hbind : texts.bind = .error e) :
    ∃ u, keepResponse svc now h text texts t = (.error (.python e), u) ∧ OnItsWay svc u h group .sent := by
  obtain ⟨ref, s, hrun, -, hsame⟩ := storeText_run svc now h "external_response" text t.ledger.store
  rw [← ledger_of_alive ht.alive] at hrun
  refine ⟨{ t with
    objects := t.objects.putBytes svc.sha256Hex (svc.redacted text), ledger := ⟨s, none⟩ }, ?_, ht.only, rfl,
    ht.flying.of_same hids hsame⟩
  unfold keepResponse
  rw [hbind]
  refine (bind_of_ok (x := putObject svc text) rfl).trans ?_
  exact bind_of_ok (onLedger_of_ok (t := { t with objects := _ }) hrun)

/-- What the database takes: the four texts of the response hold no surrogate. -/
def ResponseTexts.Bindable (texts : ResponseTexts) : Prop :=
  Encodable texts.providerRequestId ∧ Encodable texts.requestedModel ∧ Encodable texts.returnedModel ∧
    Encodable texts.systemFingerprint

theorem encode_of_encodable {s : PyStr} (hs : Encodable s) :
    encode s = .ok (String.ofList (s.map fun c => Char.ofNat c.val)) := if_pos hs

theorem encode_of_not {s : PyStr} (hs : ¬ Encodable s) : encode s = .error .unicodeEncodeError := if_neg hs

theorem bind_of_bindable {texts : ResponseTexts} (ht : texts.Bindable) : ∃ fields, texts.bind = .ok fields := by
  obtain ⟨h₁, h₂, h₃, h₄⟩ := ht
  unfold ResponseTexts.bind
  rw [encode_of_encodable h₁, encode_of_encodable h₂, encode_of_encodable h₃, encode_of_encodable h₄]
  exact ⟨_, rfl⟩

theorem bind_of_not_bindable {texts : ResponseTexts} (ht : ¬ texts.Bindable) :
    texts.bind = .error .unicodeEncodeError := by
  unfold ResponseTexts.bind
  by_cases h₁ : Encodable texts.providerRequestId
  · rw [encode_of_encodable h₁]
    by_cases h₂ : Encodable texts.requestedModel
    · rw [encode_of_encodable h₂]
      by_cases h₃ : Encodable texts.returnedModel
      · rw [encode_of_encodable h₃]
        by_cases h₄ : Encodable texts.systemFingerprint
        · exact absurd ⟨h₁, h₂, h₃, h₄⟩ ht
        · rw [encode_of_not h₄]
          rfl
      · rw [encode_of_not h₃]
        rfl
    · rw [encode_of_not h₂]
      rfl
  · rw [encode_of_not h₁]
    rfl

/-- The call was bought by this attempt, whose response is filed under `ref`. -/
structure Bought (s : Database) (h : AttemptHandle) (ref : String) : Prop where
  calls : CallsSound s
  row : ∃ r ∈ s.externalCallAttempts.rows, r.attemptId = h.attemptId ∧ r.callId = h.callId ∧
    r.state = .committed ∧ r.responseObjectRef = some ref

theorem advanced_keeps (state : CallAttemptState) (cols : List AttemptColumn) {s : Database} {a c ref : String}
    (hcols : ∀ r, (advancedRow state cols r).responseObjectRef = r.responseObjectRef)
    (hrow : ∃ r ∈ s.externalCallAttempts.rows, r.attemptId = a ∧ r.callId = c ∧ r.responseObjectRef = some ref) :
    ∃ r ∈ attemptsAdvanced s a state cols, r.attemptId = a ∧ r.callId = c ∧ r.state = state ∧
      r.responseObjectRef = some ref := by
  obtain ⟨r, hr, hra, hrc, hrr⟩ := hrow
  refine ⟨_, mem_updated.mpr ⟨r, hr, rfl⟩, ?_⟩
  rw [if_pos (decide_eq_true hra)]
  exact ⟨by simpa using hra, by simpa using hrc, by simp, (hcols r).trans hrr⟩

/-- The last stretch of a route: the response is stored, validated and committed. -/
theorem OnItsWay.bought (hids : svc.budget.ids.Separated) (ht : OnItsWay svc t h group .sent)
    (now₁ now₂ now₃ : ℚ) (text : String) {texts : ResponseTexts} (hbind : texts.Bindable) (actuals : Amounts)
    (answer : Answer) : ∃ u, (do
      keepResponse svc now₁ h text texts
      onLedger (validate now₂ h)
      onLedger (commit svc.calls now₃ h group actuals)
      pure answer : Handler Answer) t = (.ok answer, u) ∧ SettledWhen True h u ∧
      u.objects = t.objects.putBytes svc.sha256Hex (svc.redacted text) ∧
      Bought u.ledger.store h (svc.sha256Hex (svc.redacted text)) := by
  obtain ⟨fields, hfields⟩ := bind_of_bindable hbind
  obtain ⟨u, hkeep, hu, hobjects, hrow⟩ := ht.kept hids now₁ text hfields
  obtain ⟨v, hval, hv, hvatts⟩ := hu.advanced hids now₂ .validated [] (by simp [legalAttempt])
    (by simp [attemptSentStates])
  obtain ⟨w, hcommit, hw, hcalls, hwatts⟩ := hv.ended hids now₃ .committed (.settle actuals) []
    (by simp [legalAttempt]) (by simp [attemptTerminal])
  have hvrow := advanced_keeps .validated [] (fun _ => rfl) hrow
  rw [← hvatts] at hvrow
  obtain ⟨r, hr, hra, hrc, -, hrr⟩ := hvrow
  have hwrow := advanced_keeps .committed [.settledAt now₃] (s := v.store) (fun _ => rfl) ⟨r, hr, hra, hrc, hrr⟩
  rw [← hwatts] at hwrow
  refine ⟨_, ?_, hw, hobjects, hcalls, hwrow⟩
  exact (bind_of_ok hkeep).trans ((bind_of_ok (x := onLedger (validate now₂ h)) hval).trans
    (bind_of_ok (x := onLedger (commit svc.calls now₃ h group actuals)) hcommit))

theorem OnItsWay.committed (hids : svc.budget.ids.Separated) (ht : OnItsWay svc t h group .sent)
    (now₁ now₂ now₃ : ℚ) (text : String) (texts : ResponseTexts) (actuals : Amounts) (answer : Answer) :
    SettledWhen texts.Bindable h ((do
      keepResponse svc now₁ h text texts
      onLedger (validate now₂ h)
      onLedger (commit svc.calls now₃ h group actuals)
      pure answer : Handler Answer).after t) := by
  by_cases hbind : texts.Bindable
  · obtain ⟨u, hrun, hu, -, -⟩ := ht.bought hids now₁ now₂ now₃ text hbind actuals answer
    rw [after_of_ok hrun]
    exact hu.of_true hbind
  · obtain ⟨u, hkeep, hu⟩ := ht.not_kept hids now₁ text (bind_of_not_bindable hbind)
    rw [after_bind_of_error hkeep]
    exact hu.raised hbind

/-- Writing incidents does not unsettle. -/
theorem SettledWhen.of_same {condition : Prop} {u : ServiceState} (hs : SettledWhen condition h t)
    (hd : u.dispatched = t.dispatched) (hsame : sameTables t.ledger.store u.ledger.store) :
    SettledWhen condition h u :=
  ⟨hd.trans hs.1, (settled_congr hsame h).trans hs.2⟩

theorem SettledWhen.congr {p q : Prop} (hs : SettledWhen p h t) (hpq : p ↔ q) : SettledWhen q h t :=
  ⟨hs.1, hs.2.trans hpq⟩

theorem OnItsWay.noted_success (ht : OnItsWay svc t h group state) (p : Provider) :
    OnItsWay svc { t with consecutiveFailures := fun q => if q = p then 0 else t.consecutiveFailures q }
      h group state :=
  ⟨ht.only, ht.alive, ht.flying⟩

theorem recorded_same (s : Database) (now : ℚ) (severity kind detail : String) (workKey : Option String) :
    sameTables s (recorded s now severity kind detail workKey) := ⟨rfl, rfl, rfl⟩

theorem noteUpstreamFailure_same (limit : ℤ) (now : ℚ) (p : Provider) (status count : ℕ) (s : Database) :
    sameTables s ((noteUpstreamFailure limit now p status count).after s) := by
  rw [noteUpstreamFailure_after]
  split
  · exact recorded_same s _ _ _ _ _
  · split
    · exact recorded_same s _ _ _ _ _
    · exact ⟨rfl, rfl, rfl⟩

theorem after_onLedger {α : Type} (x : Proc α) (t : ServiceState) :
    (onLedger x).after t = { t with ledger := x.after t.ledger } := by
  unfold after onLedger
  split
  · rename_i h
    rw [h]
  · rename_i h
    rw [h]

theorem tx_same {α : Type} {body : Db α} {l : Session Database}
    (hbody : sameTables l.store (body.after l.store)) : sameTables l.store ((tx body).after l).store := by
  refine tx_after (P := sameTables l.store) ⟨rfl, rfl, rfl⟩ ?_
  intro a u hrun
  rw [after_of_ok hrun] at hbody
  exact hbody

theorem SettledWhen.noted {condition : Prop} (hs : SettledWhen condition h t) (now : ℚ) (p : Provider)
    (status : ℕ) : SettledWhen condition h ((noteFailure svc now p status).after t) := by
  unfold noteFailure
  rw [after_bind_of_ok (x := update _) rfl]
  change SettledWhen condition h ((onLedger (tx (noteUpstreamFailure _ now p status _)) >>= _).after _)
  have hkeep : ∀ (count : ℕ) (u : ServiceState), SettledWhen condition h u → SettledWhen condition h
      ((onLedger (tx (noteUpstreamFailure svc.config.maxConsecutiveFailures now p status count))).after u) := by
    intro count u hu
    rw [after_onLedger]
    exact hu.of_same rfl (tx_same (noteUpstreamFailure_same _ now p status count _))
  refine after_bind ?_ ?_
  · intro e u hrun
    rw [← after_of_error hrun]
    exact hkeep _ _ (hs.of_same rfl ⟨rfl, rfl, rfl⟩)
  · intro refusal u hrun
    have hu : SettledWhen condition h u := by
      rw [← after_of_ok hrun]
      exact hkeep _ _ (hs.of_same rfl ⟨rfl, rfl, rfl⟩)
    cases refusal <;> exact hu

/-- An error reply settles the attempt, whether the breaker opens or not. -/
theorem OnItsWay.error_reply (hids : svc.budget.ids.Separated) (ht : OnItsWay svc t h group .sent) (now : ℚ)
    (p : Provider) (actuals : Amounts) (status : ℕ) :
    SettledWhen True h ((errorReply svc now p h group actuals status).after t) := by
  obtain ⟨u, hend, hu, -, -⟩ := ht.ended hids now .failedFinal (.settle actuals)
    [.errorClass s!"http_{status}"] (by simp [legalAttempt]) (by simp [attemptTerminal])
  unfold errorReply
  rw [after_bind_of_ok (x := onLedger (failAfterResponse svc.calls now h (some group) actuals _ none "")) hend]
  refine after_bind ?_ ?_
  · intro e v hrun
    rw [← after_of_error hrun]
    exact hu.noted now p status
  · intro _ v hrun
    change SettledWhen True h v
    rw [← after_of_ok hrun]
    exact hu.noted now p status

theorem OnItsWay.too_large {α : Type} (hids : svc.budget.ids.Separated) (ht : OnItsWay svc t h group .sent) (now : ℚ)
    (p : Provider) (callId : String) (actuals : Amounts) (message : String) :
    SettledWhen True h ((refuseTooLarge svc now p callId h group actuals message : Handler α).after t) := by
  obtain ⟨u, hend, hu, -, -⟩ := ht.ended hids now .failedFinal (.settle actuals)
    [.errorClass "response_too_large"] (by simp [legalAttempt]) (by simp [attemptTerminal])
  unfold refuseTooLarge
  rw [after_bind_of_ok (x := onLedger (failAfterResponse svc.calls now h (some group) actuals _ none "")) hend]
  have hrecorded : SettledWhen True h ((onLedger (tx (WorkLedger.recordIncident now "ERROR"
      "provider_response_too_large" s!"{p.name} call {callId}: {message}"))).after { t with ledger := u }) := by
    rw [after_onLedger]
    refine hu.of_same rfl (tx_same ?_)
    rw [recordIncident_after]
    exact recorded_same _ _ _ _ _ _
  refine after_bind ?_ ?_
  · intro e v hrun
    rw [← after_of_error hrun]
    exact hrecorded
  · intro _ v hrun
    rw [after_of_ok hrun] at hrecorded
    exact hrecorded

theorem OnItsWay.lost {α : Type} (hids : svc.budget.ids.Separated) (ht : OnItsWay svc t h group .sent) (now : ℚ)
    (name error : String) :
    SettledWhen True h ((lostContact svc now h group name error : Handler α).after t) := by
  obtain ⟨u, hend, hu, -, -⟩ := ht.ended hids now .failedUnknown .worstCase [.errorClass error]
    (by simp [legalAttempt]) (by simp [attemptTerminal])
  unfold lostContact
  rw [after_bind_of_ok (x := onLedger (failUnknown svc.calls now h (some group) error)) hend]
  exact hu

end

/-! ## Reading the reply -/

section
variable {svc : ProviderService}

theorem frozen_of_fits {payload : List (PyStr × Json)} (h : ¬ TooLarge svc payload) :
    frozenResponseText svc payload = .ok (svc.dumps (.obj payload)) := if_neg h

theorem frozen_of_tooLarge {payload : List (PyStr × Json)} (h : TooLarge svc payload) :
    ∃ message, frozenResponseText svc payload = .error message := ⟨_, if_pos h⟩

theorem get_of_obj {v : Json} {key : PyStr} {default : Json} {members : List (PyStr × Json)}
    (h : v = .obj members) : v.get key default = .ok (memberD members key default) := by
  rw [h]
  rfl

theorem get_of_not_obj {v : Json} (key : PyStr) (default : Json) (h : ¬ ∃ members, v = .obj members) :
    v.get key default = .error .attributeError := by
  cases v with
  | obj members => exact absurd ⟨members, rfl⟩ h
  | _ => rfl

theorem floatOr_reads (svc : ProviderService) (v : Json) (key : String) (default : ℚ) :
    (∃ x, floatOr svc v key default = .ok x) ↔
      ∃ members, v = .obj members ∧ FitsFloat (memberD members (pyStr key) .null) := by
  unfold floatOr
  by_cases hobj : ∃ members, v = .obj members
  · obtain ⟨members, hv⟩ := hobj
    rw [get_of_obj hv]
    subst hv
    simp only [Json.obj.injEq, exists_eq_left']
    rw [Fallible.ok_bind]
    cases memberD members (pyStr key) .null with
    | null => exact ⟨fun _ => trivial, fun _ => ⟨_, rfl⟩⟩
    | bool b => exact ⟨fun _ => trivial, fun _ => ⟨_, rfl⟩⟩
    | float x => exact ⟨fun _ => trivial, fun _ => ⟨_, rfl⟩⟩
    | arr items => exact ⟨fun _ => trivial, fun _ => ⟨_, rfl⟩⟩
    | obj ms => exact ⟨fun _ => trivial, fun _ => ⟨_, rfl⟩⟩
    | str s =>
      refine ⟨fun _ => trivial, fun _ => ?_⟩
      cases hs : svc.text.floatOf s <;> simp [toFloat, hs] <;> exact ⟨_, rfl⟩
    | int n =>
      by_cases hn : n.natAbs < floatOverflow
      · simp [toFloat, FitsFloat, hn]
      · simp [toFloat, FitsFloat, hn]
  · rw [get_of_not_obj _ _ hobj]
    refine iff_of_false ?_ ?_
    · rintro ⟨x, hx⟩
      cases hx
    · rintro ⟨members, hv, -⟩
      exact hobj ⟨members, hv⟩

theorem floatOverflow_pos : 0 < floatOverflow :=
  Nat.sub_pos_of_lt (Nat.pow_lt_pow_right (by omega) (by omega))

theorem toFloat_zero (text : PyText) : ∃ x, toFloat text (.int 0) = .ok x := by
  refine ⟨.finite 0, ?_⟩
  simp [toFloat, floatOverflow_pos]

theorem countsAsFloat_reads (text : PyText) (v : Json) :
    (∃ x, toFloat text (v.orElse (.int 0)) = .ok x) ↔ CountsAsFloat text v := by
  unfold Json.orElse
  by_cases ht : v.truthy
  · rw [if_pos ht]
    cases v with
    | null => simp [Json.truthy] at ht
    | bool b => exact iff_of_true ⟨_, rfl⟩ trivial
    | float x => exact iff_of_true ⟨_, rfl⟩ trivial
    | int n =>
      by_cases hn : n.natAbs < floatOverflow
      · simp [toFloat, CountsAsFloat, hn]
      · simp [toFloat, CountsAsFloat, hn]
    | str s =>
      have hs : s ≠ [] := by simpa [Json.truthy] using ht
      cases hf : text.floatOf s <;> simp [toFloat, CountsAsFloat, hf, hs]
    | arr items =>
      have hne : items ≠ [] := by simpa [Json.truthy] using ht
      simp [toFloat, CountsAsFloat, hne]
    | obj members =>
      have hne : members ≠ [] := by simpa [Json.truthy] using ht
      simp [toFloat, CountsAsFloat, hne]
  · rw [if_neg ht]
    refine iff_of_true (toFloat_zero text) ?_
    cases v with
    | null => trivial
    | bool b => trivial
    | float x => trivial
    | int n =>
      have hn : n = 0 := by simpa [Json.truthy] using ht
      subst hn
      exact floatOverflow_pos
    | str s => exact .inl (by simpa [Json.truthy] using ht)
    | arr items => simpa [Json.truthy, CountsAsFloat] using ht
    | obj members => simpa [Json.truthy, CountsAsFloat] using ht

theorem countsAsInt_reads (text : PyText) (v : Json) :
    (∃ n, toInt text (v.orElse (.int 0)) = .ok n) ↔ CountsAsInt text v := by
  unfold Json.orElse
  by_cases ht : v.truthy
  · rw [if_pos ht]
    cases v with
    | null => simp [Json.truthy] at ht
    | bool b => exact iff_of_true ⟨_, rfl⟩ trivial
    | int n => exact iff_of_true ⟨_, rfl⟩ trivial
    | float x => cases x <;> simp [toInt, truncate, CountsAsInt]
    | str s =>
      have hs : s ≠ [] := by simpa [Json.truthy] using ht
      cases hf : text.intOf s <;> simp [toInt, CountsAsInt, hf, hs]
    | arr items =>
      have hne : items ≠ [] := by simpa [Json.truthy] using ht
      simp [toInt, CountsAsInt, hne]
    | obj members =>
      have hne : members ≠ [] := by simpa [Json.truthy] using ht
      simp [toInt, CountsAsInt, hne]
  · rw [if_neg ht]
    refine iff_of_true ⟨0, rfl⟩ ?_
    cases v with
    | null => trivial
    | bool b => trivial
    | int n => trivial
    | float x =>
      have hx : x = .finite 0 := by simpa [Json.truthy] using ht
      rw [hx]
      trivial
    | str s => exact .inl (by simpa [Json.truthy] using ht)
    | arr items => simpa [Json.truthy, CountsAsInt] using ht
    | obj members => simpa [Json.truthy, CountsAsInt] using ht

theorem usageFloat_reads (svc : ProviderService) {usage : List (PyStr × Json)} (key : String) :
    (∃ x, usageFloat svc (.obj usage) key = .ok x) ↔
      CountsAsFloat svc.text (memberD usage (pyStr key) (.int 0)) :=
  countsAsFloat_reads svc.text _

theorem usageInt_reads (svc : ProviderService) {usage : List (PyStr × Json)} (key : String) :
    (∃ n, usageInt svc (.obj usage) key = .ok n) ↔
      CountsAsInt svc.text (memberD usage (pyStr key) (.int 0)) :=
  countsAsInt_reads svc.text _

theorem except_bind_eq_ok {ε α β : Type} {x : Except ε α} {f : α → Except ε β} {b : β} :
    (x >>= f) = .ok b ↔ ∃ a, x = .ok a ∧ f a = .ok b := by
  cases x with
  | error e =>
    refine iff_of_false ?_ ?_
    · intro hb
      cases hb
    · rintro ⟨a, ha, -⟩
      cases ha
  | ok a =>
    constructor
    · intro hb
      exact ⟨a, rfl, hb⟩
    · rintro ⟨a', ha, hb⟩
      cases ha
      exact hb

/-- A sequence of readings goes through when each of them does. -/
theorem except_bind_ok {ε α β : Type} {x : Except ε α} {f : α → Except ε β} :
    (∃ b, (x >>= f) = .ok b) ↔ ∃ a, x = .ok a ∧ ∃ b, f a = .ok b := by
  simp only [except_bind_eq_ok]
  constructor
  · rintro ⟨b, a, ha, hb⟩
    exact ⟨a, ha, b, hb⟩
  · rintro ⟨a, ha, b, hb⟩
    exact ⟨b, a, ha, hb⟩

theorem deepseekActuals_reads (svc : ProviderService) (usage : Json) :
    (∃ a, deepseekActuals svc usage = .ok a) ↔
      ∃ members, usage = .obj members ∧
        ∀ key ∈ ["prompt_tokens", "completion_tokens", "prompt_cache_hit_tokens"],
          CountsAsFloat svc.text (memberD members (pyStr key) (.int 0)) := by
  by_cases hobj : ∃ members, usage = .obj members
  · obtain ⟨members, rfl⟩ := hobj
    simp only [Json.obj.injEq, exists_eq_left', List.forall_mem_cons, List.not_mem_nil, false_imp_iff,
      implies_true, and_true, ← usageFloat_reads svc]
    unfold deepseekActuals
    rw [except_bind_ok]
    constructor
    · rintro ⟨p, hp, hrest⟩
      obtain ⟨c, hc, hrest⟩ := except_bind_ok.mp hrest
      obtain ⟨k, hk, -⟩ := except_bind_ok.mp hrest
      exact ⟨⟨p, hp⟩, ⟨c, hc⟩, k, hk⟩
    · rintro ⟨⟨p, hp⟩, ⟨c, hc⟩, k, hk⟩
      exact ⟨p, hp, except_bind_ok.mpr ⟨c, hc, except_bind_ok.mpr ⟨k, hk, _, rfl⟩⟩⟩
  · refine iff_of_false ?_ ?_
    · rintro ⟨a, ha⟩
      unfold deepseekActuals usageFloat at ha
      rw [get_of_not_obj _ _ hobj] at ha
      cases ha
    · rintro ⟨members, hv, -⟩
      exact hobj ⟨members, hv⟩

theorem cachedTokens_reads (svc : ProviderService) (usage : List (PyStr × Json)) :
    (∃ n, cachedTokens svc (.obj usage) = .ok n) ↔ FiniteCached usage := by
  unfold cachedTokens FiniteCached
  rw [get_of_obj rfl]
  rw [Fallible.ok_bind]
  cases memberD usage (pyStr "prompt_tokens_details") .null with
  | obj details =>
    simp only [Json.obj.injEq, forall_eq']
    cases memberD details (pyStr "cached_tokens") .null with
    | null => simp [pure, Except.pure]
    | bool b => simp [pure, Except.pure, toInt]
    | int n => simp [pure, Except.pure, toInt]
    | float x => cases x <;> simp [pure, Except.pure, toInt, truncate]
    | str s => cases hs : svc.text.intOf s <;> simp [pure, Except.pure, toInt, hs]
    | arr items => simp [pure, Except.pure, toInt]
    | obj members => simp [pure, Except.pure, toInt]
  | _ => exact iff_of_true ⟨_, rfl⟩ (by simp)

theorem choice_reads (svc : ProviderService) (v : Json) :
    (∃ t, (v.get (pyStr "finish_reason") (.str [])).map (toStr svc.text) = .ok t) ↔
      ∃ members, v = .obj members := by
  cases v with
  | obj members => exact iff_of_true ⟨_, rfl⟩ ⟨members, rfl⟩
  | _ =>
    refine iff_of_false ?_ ?_
    · rintro ⟨t, ht⟩
      cases ht
    · rintro ⟨members, hv⟩
      cases hv

theorem finishReason_reads (svc : ProviderService) (payload : List (PyStr × Json)) :
    (∃ t, finishReason svc payload = .ok t) ↔ FirstChoiceIsObject payload := by
  unfold finishReason FirstChoiceIsObject
  cases member payload (pyStr "choices") with
  | none => exact iff_of_true ⟨_, rfl⟩ trivial
  | some choices =>
    cases choices with
    | arr items =>
      cases items with
      | nil => exact iff_of_true ⟨_, rfl⟩ trivial
      | cons v rest => exact choice_reads svc v
    | str s =>
      cases s with
      | nil => exact iff_of_true ⟨_, rfl⟩ rfl
      | cons c rest =>
        refine (choice_reads svc (.str [c])).trans (iff_of_false ?_ ?_)
        · rintro ⟨members, hv⟩
          cases hv
        · simp
    | _ => exact iff_of_true ⟨_, rfl⟩ trivial

theorem telemetryOf_reads (svc : ProviderService) (i : Inference) (callId : String) (r : UpstreamReply) :
    (∃ v, telemetryOf svc i callId r = .ok v) ↔
      (∃ usage, usageOf r.payload = .obj usage ∧
        (∀ key ∈ ["prompt_tokens", "completion_tokens"],
          CountsAsInt svc.text (memberD usage (pyStr key) (.int 0))) ∧ FiniteCached usage) ∧
        FirstChoiceIsObject r.payload := by
  unfold telemetryOf
  rw [← finishReason_reads svc]
  by_cases hobj : ∃ members, usageOf r.payload = .obj members
  · obtain ⟨usage, hu⟩ := hobj
    rw [hu]
    simp only [Json.obj.injEq, exists_eq_left', List.forall_mem_cons, List.not_mem_nil, false_imp_iff,
      implies_true, and_true, ← usageInt_reads svc, ← cachedTokens_reads svc]
    rw [except_bind_ok]
    constructor
    · rintro ⟨p, hp, hrest⟩
      obtain ⟨c, hc, hrest⟩ := except_bind_ok.mp hrest
      obtain ⟨n, hn, hrest⟩ := except_bind_ok.mp hrest
      obtain ⟨f, hf, -⟩ := except_bind_ok.mp hrest
      exact ⟨⟨⟨⟨p, hp⟩, c, hc⟩, n, hn⟩, f, hf⟩
    · rintro ⟨⟨⟨⟨p, hp⟩, c, hc⟩, n, hn⟩, f, hf⟩
      exact ⟨p, hp, except_bind_ok.mpr ⟨c, hc, except_bind_ok.mpr ⟨n, hn,
        except_bind_ok.mpr ⟨f, hf, _, rfl⟩⟩⟩⟩
  · refine iff_of_false ?_ ?_
    · rintro ⟨v, hv⟩
      unfold usageInt at hv
      dsimp only at hv
      rw [get_of_not_obj _ _ hobj] at hv
      cases hv
    · rintro ⟨⟨usage, hu, -⟩, -⟩
      exact hobj ⟨usage, hu⟩

end

/-! ## Before the dispatch -/

section
variable {svc : ProviderService} {t : ServiceState}

/-- Nothing has been dispatched, and the ledger is sound. -/
structure Ready (svc : ProviderService) (t : ServiceState) : Prop where
  idle : t.dispatched = []
  alive : t.ledger.life = none
  calls : CallsSound t.ledger.store
  money : MoneySound svc.calls t.ledger.store

/-- The attempt was begun and its call is still to be bought. -/
structure Begun (svc : ProviderService) (t : ServiceState) (h : AttemptHandle) : Prop where
  idle : t.dispatched = []
  alive : t.ledger.life = none
  calls : CallsSound t.ledger.store
  money : MoneySound svc.calls t.ledger.store
  row : ∃ r ∈ t.ledger.store.externalCallAttempts.rows, r.attemptId = h.attemptId ∧ r.callId = h.callId ∧
    r.attemptOrdinal = h.attemptOrdinal ∧ r.state = .intent
  unbought : ∀ q ∈ t.ledger.store.externalCallAttempts.rows, q.callId = h.callId → q.state ≠ .committed

/-- A call that uses no handle keeps the ledger sound. -/
theorem Ready.step (hids : svc.budget.ids.Separated) (ht : Ready svc t) {u : ServiceState} {call : Call}
    (hhandle : call.op.handle = none) (hnone : u.dispatched = t.dispatched) (halive : u.ledger.life = none)
    (he : Effect svc.calls t.ledger.store call u.ledger.store) : Ready svc u := by
  have hissued : Issued t.ledger.store call := by
    unfold Issued
    rw [hhandle]
    trivial
  have hgroup : PassesItsGroup t.ledger.store call := by
    unfold PassesItsGroup
    cases hop : call.op <;> simp [hop, Op.handle] at hhandle <;> trivial
  have horderly : Orderly svc.calls t.ledger.store call := by
    unfold Orderly
    cases hop : call.op <;> simp [hop, Op.handle] at hhandle <;> trivial
  exact ⟨hnone.trans ht.idle, halive, ht.calls.effect hissued he, ht.money.effect hids hissued hgroup horderly he⟩

/-- The id of the call with this identity. -/
def callIdFor (svc : ProviderService) (provider opClass callKey : String) (workKey : Option String) : String :=
  svc.budget.ids.externalCall provider opClass ((Budget.firstOf workKey (some "-")).getD "-") callKey

/-- Opening a call goes through. -/
theorem opened_run (halive : t.ledger.life = none) (now : ℚ) (provider opClass callKey : String)
    (workKey : Option String) :
    ∃ l, onLedger (openCall svc.calls now provider opClass callKey workKey) t =
        (.ok (callIdFor svc provider opClass callKey workKey), { t with ledger := l }) ∧ l.life = none ∧
      Effect svc.calls t.ledger.store ⟨now, none, .openCall provider opClass callKey workKey⟩ l.store := by
  have heffect := openCall_effect svc.calls t.ledger.store
    ⟨now, none, .openCall provider opClass callKey workKey⟩ provider opClass callKey workKey
  obtain ⟨s, hput, -⟩ := Slot.insertOrIgnore_run (ε := Raised) externalCallsSlot
    { callId := svc.calls.budget.ids.externalCall provider opClass
        ((Budget.firstOf workKey (some "-")).getD "-") callKey,
      provider, opClass, callKey, workKey, state := .opened, attemptCount := 0,
      committedAttemptId := none, createdAt := now, updatedAt := now } t.ledger.store
  have hrun : openCall svc.calls now provider opClass callKey workKey ⟨t.ledger.store, none⟩ =
      (.ok (callIdFor svc provider opClass callKey workKey), ⟨s, none⟩) := bind_of_ok (tx_immortal hput)
  rw [after_of_ok hrun] at heffect
  rw [← ledger_of_alive halive] at hrun
  exact ⟨_, onLedger_of_ok hrun, rfl, heffect⟩

/-- `begin_attempt` returns a fresh attempt, or raises with nothing written. -/
theorem Ready.begun (hids : svc.budget.ids.Separated) (ht : Ready svc t) (now : ℚ) (callId : String) :
    (∃ h l, onLedger (beginAttempt svc.calls now callId) t = (.ok h, { t with ledger := l }) ∧
      h.callId = callId ∧ Begun svc { t with ledger := l } h) ∨
      ∃ e, onLedger (beginAttempt svc.calls now callId) t = (.error e, t) := by
  cases hrun : beginAttemptIn svc.calls now callId t.ledger.store with
  | mk r u =>
    cases r with
    | error e =>
      refine .inr ⟨.ledger (.raised e), ?_⟩
      have htx : beginAttempt svc.calls now callId t.ledger = (.error (.raised e), t.ledger) := by
        unfold beginAttempt tx
        rw [ht.alive, transaction_of_error hrun, if_neg (by simp)]
        rw [ledger_of_alive ht.alive]
        rfl
      exact onLedger_of_error htx
    | ok h =>
      obtain ⟨c, hc, hcall, hopen, -, hh, -, hatts, -⟩ := beginAttemptIn_ok hrun
      refine .inl ⟨h, ⟨u, none⟩, ?_, ?_, ?_⟩
      · have htx := tx_immortal hrun
        rw [← ledger_of_alive ht.alive] at htx
        exact onLedger_of_ok htx
      · rw [hh]
        exact hcall
      · subst hh
        have heffect : Effect svc.calls t.ledger.store ⟨now, none, .beginAttempt callId⟩ u :=
          beginAttemptIn_effect hrun
        have hready : Ready svc { t with ledger := ⟨u, none⟩ } := ht.step hids rfl rfl rfl heffect
        refine ⟨hready.idle, rfl, hready.calls, hready.money, ?_, ?_⟩
        · exact ⟨_, hatts ▸ List.mem_append_right _ (List.mem_singleton.mpr rfl), rfl, rfl, rfl, rfl⟩
        · intro q hq hqc
          rw [hatts, List.mem_append, List.mem_singleton] at hq
          rcases hq with hq | rfl
          · exact ht.calls.unbought hc hopen q hq hqc
          · simp

theorem reserve_ok {l : ExternalCallLedger} {now : ℚ} {h : AttemptHandle} {amounts : Amounts}
    {k : Option String} {s u : Session Database} {g : ReservationGroup}
    (hrun : reserve l now h amounts k s = (.ok g, u)) : tx (reserveTx l now h amounts k) s = (.ok g, u) := by
  unfold reserve catching at hrun
  split at hrun
  · rename_i htx
    rw [htx, hrun]
  · rename_i e m htx
    split at hrun
    · rename_i x hx
      obtain ⟨resource, requested, headroom, rfl, rfl⟩ := onRefusal_some hx
      obtain ⟨_, m', -, hraise⟩ := bind_ok.mp hrun
      simp at hraise
    · simp at hrun

theorem Ready.begun_or_refused (hids : svc.budget.ids.Separated) (ht : Ready svc t) (now : ℚ)
    (callId : String) :
    (∃ h l, beginOrRefuse svc now callId t = (.ok h, { t with ledger := l }) ∧ h.callId = callId ∧
      Begun svc { t with ledger := l } h) ∨
      ∃ e, beginOrRefuse svc now callId t = (.error e, t) := by
  unfold beginOrRefuse catching
  rcases ht.begun hids now callId with ⟨h, l, hrun, hcall, hl⟩ | ⟨e, hrun⟩
  · rw [hrun]
    exact .inl ⟨h, l, rfl, hcall, hl⟩
  · rw [hrun]
    refine .inr ?_
    dsimp only
    split
    · rename_i hh
      split at hh
      · cases hh
        exact ⟨_, rfl⟩
      · cases hh
    · exact ⟨_, rfl⟩

/-- The group that was reserved is the attempt's, and its money is held. -/
theorem Begun.held (hids : svc.budget.ids.Separated) {h : AttemptHandle} (ht : Begun svc t h) {now : ℚ}
    {amounts : Amounts} {k : Option String} {u : Session Database} {g : ReservationGroup}
    (hrun : reserve svc.calls now h amounts k t.ledger = (.ok g, u)) :
    u.life = none ∧ InFlight svc.calls u.store h g .budgetReserved := by
  rw [ledger_of_alive ht.alive] at hrun
  have hbody := tx_ok (reserve_ok hrun)
  have hlife : u = ⟨u.store, none⟩ := by
    have := (reserve_ok hrun).symm.trans (tx_immortal hbody)
    simpa using congrArg Prod.snd this
  obtain ⟨r, hr, hrh, hrc, hro, hrs⟩ := ht.row
  obtain ⟨m, _, hres, hadv⟩ := reserveTx_ok hbody
  obtain ⟨-, -, us, hloop⟩ := Budget.reserveIn_ok hres
  obtain ⟨-, -, -, hatts, -⟩ := Budget.reserveLoop_ok hloop
  obtain ⟨-, hrows, -, -⟩ := advanceIn_ok hadv
  unfold attemptsAdvanced at hrows
  rw [hatts] at hrows
  have heffect := reserve_effect (l := svc.calls) t.ledger.store
    (show (⟨now, none, .reserve h amounts k⟩ : Call).op = .reserve h amounts k from rfl)
  rw [after_of_ok hrun] at heffect
  have hissued : Issued t.ledger.store ⟨now, none, .reserve h amounts k⟩ := ⟨r, hr, hrh, hrc, hro⟩
  have hmoney : MoneySound svc.calls u.store := by
    refine ht.money.effect hids hissued trivial ?_ heffect
    intro a ha hah hheld
    rw [eq_of_key t.ledger.store.externalCallAttempts.sound.1 ha hr (hah.trans hrh.symm), hrs] at hheld
    simp [heldStates, attemptSentStates] at hheld
  have hne : h.attemptId ≠ "" := by
    obtain ⟨⟨c, n, hid⟩, -⟩ := ht.money.attemptIds r hr
    rw [← hrh, hid]
    exact hids.attempt_ne_empty c n
  refine ⟨by rw [hlife], ht.calls.effect hissued heffect, hmoney, ?_, by simp [heldStates], ?_, ?_⟩
  · refine ⟨advancedRow .budgetReserved [] r, ?_, ?_, ?_, ?_⟩
    · rw [hrows]
      exact mem_updated.mpr ⟨r, hr, by simp [hrh]⟩
    · simpa using hrh
    · simpa using hrc
    · simp
  · rw [hrows]
    exact advanced_unbought (by simp) ht.unbought
  · rw [(reserveTx_returns hne hbody).1]

theorem Begun.reserved (hids : svc.budget.ids.Separated) {h : AttemptHandle} (ht : Begun svc t h) (now : ℚ)
    (amounts : Amounts) (k : Option String) :
    (∃ g l, reserveOrRefuse svc now h amounts k t = (.ok g, { t with ledger := l }) ∧ l.life = none ∧
      InFlight svc.calls l.store h g .budgetReserved) ∨
    ∃ e u, reserveOrRefuse svc now h amounts k t = (.error e, u) ∧ u.dispatched = [] := by
  cases hrun : reserve svc.calls now h amounts k t.ledger with
  | mk r u =>
    cases r with
    | ok g =>
      obtain ⟨hlife, hfly⟩ := ht.held hids hrun
      refine .inl ⟨g, u, ?_, hlife, hfly⟩
      unfold reserveOrRefuse catching
      rw [onLedger_of_ok hrun]
    | error e =>
      refine .inr ?_
      unfold reserveOrRefuse catching
      rw [onLedger_of_error hrun]
      dsimp only
      split
      · rename_i hh
        split at hh
        · cases hh
          exact ⟨_, _, rfl, ht.idle⟩
        · cases hh
      · exact ⟨_, _, rfl, ht.idle⟩

/-- The dispatch goes through, and the request is on its way. -/
theorem dispatched_run (hids : svc.budget.ids.Separated) {h : AttemptHandle} {g : ReservationGroup}
    (hidle : t.dispatched = []) (halive : t.ledger.life = none)
    (hfly : InFlight svc.calls t.ledger.store h g .budgetReserved) (now : ℚ) (request : Json)
    (dispatchedAt proxyIngressAt : Option ℚ) :
    ∃ u, dispatch svc now h request dispatchedAt proxyIngressAt t = (.ok (), u) ∧ OnItsWay svc u h g .sent ∧
      u.objects = t.objects.putBytes svc.sha256Hex (svc.redacted (svc.dumps request)) := by
  obtain ⟨ref, s, hstore, -, hsame⟩ := storeText_run svc now h "external_request" (svc.dumps request) t.ledger.store
  obtain ⟨m, hadv, hnext, -⟩ := (hfly.of_same hids hsame).advance_run hids now .sent
    [.requestObjectRef ref.key, .dispatchedAt (dispatchedAt.getD now), .proxyIngressAt proxyIngressAt]
    (by simp [legalAttempt]) (by simp [attemptSentStates])
  have hsent : markSent svc.calls now h (svc.dumps request) dispatchedAt proxyIngressAt t.ledger =
      (.ok (), ⟨m, none⟩) := by
    rw [ledger_of_alive halive]
    exact (bind_of_ok hstore).trans hadv
  let put : ServiceState :=
    { t with objects := t.objects.putBytes svc.sha256Hex (svc.redacted (svc.dumps request)) }
  have hput : putObject svc (svc.dumps request) t = (.ok (), put) := rfl
  have hmark : onLedger (markSent svc.calls now h (svc.dumps request) dispatchedAt proxyIngressAt) put =
      (.ok (), { put with ledger := ⟨m, none⟩ }) := onLedger_of_ok hsent
  refine ⟨{ put with ledger := ⟨m, none⟩, dispatched := t.dispatched ++ [h] }, ?_,
    ⟨?_, rfl, hnext⟩, rfl⟩
  · exact (bind_of_ok hput).trans (bind_of_ok hmark)
  · simp [hidle]

end

/-! ## What an attempt has reserved -/

/-- The attempt holds exactly these amounts. -/
def Holds (s : Database) (attemptId : String) (amounts : Amounts) : Prop :=
  (reservationsOf s attemptId).map (fun r => (r.resource, r.amount, r.state)) =
    amounts.entries.map fun e => (e.1, e.2, .reserved)

theorem Holds.of_same {s t : Database} {a : String} {amounts : Amounts} (h : Holds s a amounts)
    (hsame : t.budgetReservations = s.budgetReservations) : Holds t a amounts := by
  unfold Holds at h ⊢
  rw [reservationsOf_congr (congrArg Table.rows hsame)]
  exact h

theorem onLedger_ok {α : Type} {x : Proc α} {t u : ServiceState} {a : α} (h : onLedger x t = (.ok a, u)) :
    x t.ledger = (.ok a, u.ledger) := by
  cases hrun : x t.ledger with
  | mk r l =>
    simp only [onLedger, hrun] at h
    cases r with
    | error e => cases h
    | ok b =>
      cases h
      rfl

theorem storeText_reservations {l : ExternalCallLedger} {now : ℚ} {h : AttemptHandle} {kind text : String}
    {s u : Session Database} {ref : StoredObject} (hrun : storeText l now h kind text s = (.ok ref, u)) :
    u.store.budgetReservations = s.store.budgetReservations := by
  cases hredacted : l.storeRedacted text with
  | error e => simp [storeText, hredacted] at hrun
  | ok r =>
    simp only [storeText, hredacted] at hrun
    obtain ⟨_, m, hput, hpure⟩ := bind_ok.mp hrun
    cases hpure
    exact (registerArtifact_same (tx_ok hput)).2.2

/-- Recording the dispatch moves no money. -/
theorem dispatch_reservations {svc : ProviderService} {now : ℚ} {h : AttemptHandle} {request : Json}
    {dispatchedAt proxyIngressAt : Option ℚ} {t u : ServiceState}
    (hrun : dispatch svc now h request dispatchedAt proxyIngressAt t = (.ok (), u)) :
    u.ledger.store.budgetReservations = t.ledger.store.budgetReservations := by
  obtain ⟨_, m, hput, hrest⟩ := bind_ok.mp hrun
  obtain ⟨_, n, hmark, hsend⟩ := bind_ok.mp hrest
  cases hput
  cases hsend
  obtain ⟨ref, l, hstore, hadv⟩ := bind_ok.mp (onLedger_ok hmark)
  exact (advanceIn_ok (tx_ok hadv)).2.2.2.trans (storeText_reservations hstore)

section
variable {svc : ProviderService} {t : ServiceState}

theorem reserveOrRefuse_ok {now : ℚ} {h : AttemptHandle} {amounts : Amounts} {k : Option String}
    {u : ServiceState} {g : ReservationGroup} (hrun : reserveOrRefuse svc now h amounts k t = (.ok g, u)) :
    reserve svc.calls now h amounts k t.ledger = (.ok g, u.ledger) := by
  cases hres : onLedger (reserve svc.calls now h amounts k) t with
  | mk r v =>
    unfold reserveOrRefuse catching at hrun
    rw [hres] at hrun
    cases r with
    | ok g' =>
      cases hrun
      exact onLedger_ok hres
    | error e =>
      dsimp only at hrun
      split at hrun
      · rename_i hh
        split at hh
        · cases hh
          cases hrun
        · cases hh
      · cases hrun

/-- Having reserved, a fresh attempt holds what it asked for. -/
theorem Begun.holds {h : AttemptHandle} (ht : Begun svc t h) {now : ℚ} {amounts : Amounts} {k : Option String}
    {u : Session Database} {g : ReservationGroup}
    (hrun : reserve svc.calls now h amounts k t.ledger = (.ok g, u)) : Holds u.store h.attemptId amounts := by
  obtain ⟨m, _, hres, hadv⟩ := reserveTx_ok (tx_ok (reserve_ok hrun))
  obtain ⟨-, -, us, hloop⟩ := Budget.reserveIn_ok hres
  obtain ⟨hrows, -, -⟩ := Budget.reserveLoop_ok hloop
  obtain ⟨r, hr, hrh, -, -, hintent⟩ := ht.row
  have hnone : reservationsOf t.ledger.store h.attemptId = [] := by
    rw [← hrh]
    exact (ht.money.coupled r hr).1 hintent
  have hadded : reservationsOf m h.attemptId = _ := reservationsOf_reserved (l := svc.calls) hrows h.attemptId
  rw [hnone, if_pos rfl, List.nil_append] at hadded
  refine Holds.of_same ?_ (advanceIn_ok hadv).2.2.2
  unfold Holds
  rw [hadded, List.map_map]
  rfl

end

/-! ## What each route does with a reply -/

section
variable {svc : ProviderService} {t : ServiceState} {h : AttemptHandle} {group : ReservationGroup}

/-- A reading that raises leaves the attempt in flight. -/
theorem OnItsWay.read {α β : Type} (ht : OnItsWay svc t h group .sent) {x : Except PyError α}
    {f : α → Handler β} {readable rest : Prop} (hread : (∃ a, x = .ok a) ↔ readable)
    (hrest : ∀ a, SettledWhen rest h ((f a).after t)) :
    SettledWhen (readable ∧ rest) h ((python x >>= f).after t) := by
  cases x with
  | ok a =>
    have hyes : readable := hread.mp ⟨a, rfl⟩
    rw [after_bind_of_ok (x := python (.ok a)) rfl]
    exact (hrest a).congr (by simp [hyes])
  | error e =>
    have hno : ¬ readable := by
      rw [← hread]
      rintro ⟨a, ha⟩
      cases ha
    rw [after_bind_of_error (x := python (.error e)) rfl]
    exact ht.raised fun hboth => hno hboth.1

/-- The response of a paid route: too large to freeze, or stored and committed. -/
theorem OnItsWay.frozen (hids : svc.budget.ids.Separated) (ht : OnItsWay svc t h group .sent)
    (clock : ℕ → ℚ) (p : Provider) (callId : String) (late actuals : Amounts) (payload : List (PyStr × Json))
    (texts : ResponseTexts) :
    SettledWhen (TooLarge svc payload ∨ texts.Bindable) h
      ((freezeAndCommit svc clock p callId h group late actuals payload texts).after t) := by
  unfold freezeAndCommit
  by_cases hlarge : TooLarge svc payload
  · obtain ⟨message, hm⟩ := frozen_of_tooLarge hlarge
    rw [hm]
    exact (ht.too_large hids (clock 4) p callId late message).of_true (.inl hlarge)
  · rw [frozen_of_fits hlarge]
    exact (ht.committed hids (clock 4) (clock 5) (clock 6) _ texts actuals _).congr (by simp [hlarge])

theorem encodable_nil : Encodable [] := by
  intro c hc
  cases hc

theorem exaAnswered_settles (hids : svc.budget.ids.Separated) (ht : OnItsWay svc t h group .sent)
    (clock : ℕ → ℚ) (callId : String) (r : UpstreamReply) :
    SettledWhen (ExaReadable svc r) h ((exaAnswered svc clock callId h group r).after t) := by
  unfold exaAnswered
  by_cases hstatus : r.status ≠ 200
  · rw [if_pos hstatus]
    exact (ht.error_reply hids (clock 4) .exa exaActuals r.status).of_true (.inl hstatus)
  · rw [if_neg hstatus, after_bind_of_ok (x := noteSuccess .exa) rfl]
    have hrest := (ht.noted_success .exa).read (floatOr_reads svc (costOf r.payload) "total" svc.config.exaUsdWorstCase)
      fun cost => (ht.noted_success .exa).frozen hids clock .exa callId exaActuals
        ⟨[("exa_requests", 1), ("exa_usd", svc.column cost), ("remote_calls", 1)], by simp⟩ r.payload
        { providerRequestId := textOf svc r.payload "requestId" }
    refine hrest.congr ?_
    simp [ExaReadable, hstatus, ResponseTexts.Bindable, encodable_nil]

theorem tavilyAnswered_settles (hids : svc.budget.ids.Separated) (ht : OnItsWay svc t h group .sent)
    (clock : ℕ → ℚ) (callId : String) (r : UpstreamReply) :
    SettledWhen (TavilyReadable svc r) h ((tavilyAnswered svc clock callId h group r).after t) := by
  unfold tavilyAnswered
  by_cases hstatus : r.status ≠ 200
  · rw [if_pos hstatus]
    exact (ht.error_reply hids (clock 4) .tavily tavilyActuals r.status).of_true (.inl hstatus)
  · rw [if_neg hstatus, after_bind_of_ok (x := noteSuccess .tavily) rfl]
    have hrest := (ht.noted_success .tavily).read
      (floatOr_reads svc (memberD r.payload (pyStr "usage") (.obj [])) "credits" svc.config.tavilyCreditsWorstCase)
      fun credits => (ht.noted_success .tavily).frozen hids clock .tavily callId tavilyActuals
        ⟨[("tavily_requests", 1), ("tavily_credits", svc.column credits), ("remote_calls", 1)], by simp⟩ r.payload
        { providerRequestId := textOf svc r.payload "request_id" }
    refine hrest.congr ?_
    simp [TavilyReadable, hstatus, ResponseTexts.Bindable, encodable_nil]

theorem deepseekAnswered_settles (hids : svc.budget.ids.Separated) (ht : OnItsWay svc t h group .sent)
    (clock : ℕ → ℚ) (requestedModel : PyStr) (callId : String) (r : UpstreamReply) :
    SettledWhen (DeepseekReadable svc requestedModel r) h
      ((deepseekAnswered svc clock requestedModel callId h group r).after t) := by
  unfold deepseekAnswered
  refine ht.read (deepseekActuals_reads svc (usageOf r.payload)) fun actuals => ?_
  by_cases hstatus : r.status ≠ 200
  · rw [if_pos hstatus]
    exact (ht.error_reply hids (clock 4) .deepseek actuals r.status).of_true (.inl hstatus)
  · rw [if_neg hstatus, after_bind_of_ok (x := noteSuccess .deepseek) rfl]
    have hrest := (ht.noted_success .deepseek).frozen hids clock .deepseek callId actuals actuals r.payload
      { providerRequestId := textOf svc r.payload "id", requestedModel,
        returnedModel := textOf svc r.payload "model",
        systemFingerprint := textOf svc r.payload "system_fingerprint",
        usageJson := svc.dumps (usageOf r.payload) }
    refine hrest.congr ?_
    simp only [hstatus, ResponseTexts.Bindable, List.forall_mem_cons, List.not_mem_nil, false_imp_iff,
      implies_true, and_true, false_or]
    constructor
    · rintro (hlarge | ⟨h₁, h₂, h₃, h₄⟩)
      · exact .inl hlarge
      · exact .inr ⟨h₂, h₁, h₃, h₄⟩
    · rintro (hlarge | ⟨h₂, h₁, h₃, h₄⟩)
      · exact .inl hlarge
      · exact .inr ⟨h₁, h₂, h₃, h₄⟩

theorem chatAnswered_settles (hids : svc.budget.ids.Separated) (ht : OnItsWay svc t h group .sent)
    (clock : ℕ → ℚ) (i : Inference) (callId : String) (r : UpstreamReply) :
    SettledWhen (ChatReadable svc i.requestedModel r) h
      ((chatAnswered svc clock i callId h group r).after t) := by
  unfold chatAnswered ChatReadable
  rw [← and_assoc]
  refine ht.read (telemetryOf_reads svc i callId r) fun telemetry => ?_
  by_cases hstatus : r.status ≠ 200
  · rw [if_pos hstatus]
    obtain ⟨u, hend, hu, -, -⟩ := ht.ended hids (clock 7) .failedFinal _ _ (by simp [legalAttempt])
      (by simp [attemptTerminal])
    rw [after_bind_of_ok (x := onLedger (failAfterResponse svc.calls (clock 7) h (some group) _ _ _ _)) hend]
    exact hu.of_true (.inl hstatus)
  · rw [if_neg hstatus]
    refine (ht.committed hids (clock 7) (clock 8) (clock 9) _ _ _ _).congr ?_
    simp [hstatus, ResponseTexts.Bindable, encodable_nil]

/-! ## The routes from start to end -/

/-- Whatever the request dispatched is settled, if the condition holds, and not otherwise. -/
def EndsSettled (condition : Prop) (t : ServiceState) : Prop :=
  ∀ h ∈ t.dispatched, Settled t.ledger.store h ↔ condition

theorem EndsSettled.of_idle {condition : Prop} (ht : t.dispatched = []) : EndsSettled condition t := by
  intro h hh
  rw [ht] at hh
  cases hh

theorem SettledWhen.ends {condition : Prop} (ht : SettledWhen condition h t) : EndsSettled condition t := by
  intro q hq
  rw [ht.1, List.mem_singleton] at hq
  rw [hq]
  exact ht.2

/-- What raises before the dispatch, or only looks at the state, leaves nothing to settle. -/
theorem EndsSettled.of_bind {α : Type} {x : Handler α} {f : α → Handler Answer} {condition : Prop}
    (hx : (x.after t).dispatched = [] ∧ ∀ a u, x t = (.ok a, u) → EndsSettled condition ((f a).after u)) :
    EndsSettled condition ((x >>= f).after t) := by
  refine after_bind ?_ hx.2
  intro e u hrun
  rw [← after_of_error hrun]
  exact .of_idle hx.1

/-- The checks at the head of a route write nothing. -/
def ReadsOnly {α : Type} (x : Handler α) : Prop := ∀ t, x.after t = t

theorem ReadsOnly.bind {α : Type} {x : Handler α} (hx : ReadsOnly x) {f : α → Handler Answer} {condition : Prop}
    (hnone : t.dispatched = []) (hf : ∀ a, x t = (.ok a, t) → EndsSettled condition ((f a).after t)) :
    EndsSettled condition ((x >>= f).after t) := by
  refine .of_bind ⟨(hx t).symm ▸ hnone, ?_⟩
  intro a u hrun
  have hut : u = t := (after_of_ok hrun).symm.trans (hx t)
  subst hut
  exact hf a hrun

theorem pure_python {α : Type} (x : Except PyError α) : ReadsOnly (python x) := by
  intro t
  cases x <;> rfl

theorem pure_requireClosed (p : Provider) : ReadsOnly (requireClosed svc p) := by
  intro t
  unfold requireClosed
  rw [after_bind_of_ok (getStore_run t)]
  cases requireBreakerClosed svc.config.maxConsecutiveFailures t.ledger.store p (t.consecutiveFailures p) <;> rfl

/-- An opened call either dispatches nothing, or goes from its dispatch to the reply with its
    amounts held. -/
theorem answerOrBuy_holds (hids : svc.budget.ids.Separated) (ht : Ready svc t) (clock : ℕ → ℚ) (p : Purchase)
    (reply : Upstream) (callId : String) (workKey : Option String) :
    ((answerOrBuy svc clock p reply callId workKey).after t).dispatched = [] ∨
    ∃ h g u, h.callId = callId ∧ OnItsWay svc u h g .sent ∧
      u.objects = t.objects.putBytes svc.sha256Hex (svc.redacted (svc.dumps p.request)) ∧
      Holds u.ledger.store h.attemptId p.amounts ∧
      answerOrBuy svc clock p reply callId workKey t = received svc clock p h g reply u := by
  unfold answerOrBuy
  rw [after_bind_of_ok (getStore_run t), bind_of_ok (getStore_run t)]
  cases replayed svc t callId with
  | error e => exact .inl ht.idle
  | ok answer =>
    cases answer with
    | some a => exact .inl ht.idle
    | none =>
      dsimp only
      rcases ht.begun_or_refused hids (clock 1) callId with ⟨h, l, hbegin, hcall, hl⟩ | ⟨e, hbegin⟩
      · rw [after_bind_of_ok hbegin, bind_of_ok hbegin]
        rcases hl.reserved hids (clock 2) p.amounts workKey with
          ⟨g, m, hreserve, halive, hfly⟩ | ⟨e, u, hreserve, hidle⟩
        · rw [after_bind_of_ok hreserve, bind_of_ok hreserve]
          obtain ⟨u, hsend, hu, hobjects⟩ := dispatched_run hids (t := { t with ledger := m }) ht.idle halive hfly
            (clock 3) p.request none none
          have hheld := hl.holds (reserveOrRefuse_ok hreserve)
          exact .inr ⟨h, g, u, hcall, hu, hobjects, hheld.of_same (dispatch_reservations hsend), bind_of_ok hsend⟩
        · rw [after_bind_of_error hreserve]
          exact .inl hidle
      · rw [after_bind_of_error hbegin]
        exact .inl ht.idle

/-- A paid route whose keys the database takes opens its call and goes on with it. -/
theorem buy_opens (halive : t.ledger.life = none) (clock : ℕ → ℚ) (p : Purchase) (reply : Upstream) {callKey : String} {workKey : Option String} (hkey : encode p.callKey = .ok callKey)
    (hwork : bindOptional p.workKey = .ok workKey) :
    ∃ l, buy svc clock p reply t = answerOrBuy svc clock p reply
        (callIdFor svc p.provider.name p.opClass callKey workKey) workKey { t with ledger := l } ∧
      l.life = none ∧ Effect svc.calls t.ledger.store
        ⟨clock 0, none, .openCall p.provider.name p.opClass callKey workKey⟩ l.store := by
  obtain ⟨l, hopen, hlife, heffect⟩ := opened_run halive (clock 0) p.provider.name p.opClass callKey workKey
  refine ⟨l, ?_, hlife, heffect⟩
  unfold buy
  rw [hkey, hwork]
  refine (bind_of_ok (x := python (.ok callKey)) rfl).trans ?_
  exact (bind_of_ok (x := python (.ok workKey)) rfl).trans (bind_of_ok hopen)

/-- A paid route either dispatches nothing, or goes from the dispatch of its call to the reply with
    its amounts held. -/
theorem buy_holds (hids : svc.budget.ids.Separated) (ht : Ready svc t) (clock : ℕ → ℚ) (p : Purchase)
    (reply : Upstream) :
    ((buy svc clock p reply).after t).dispatched = [] ∨
    ∃ callKey workKey h g u, encode p.callKey = .ok callKey ∧ bindOptional p.workKey = .ok workKey ∧
      h.callId = callIdFor svc p.provider.name p.opClass callKey workKey ∧ OnItsWay svc u h g .sent ∧
      u.objects = t.objects.putBytes svc.sha256Hex (svc.redacted (svc.dumps p.request)) ∧
      Holds u.ledger.store h.attemptId p.amounts ∧
      buy svc clock p reply t = received svc clock p h g reply u := by
  cases hkey : encode p.callKey with
  | error e =>
    refine .inl ?_
    unfold buy
    rw [hkey]
    exact ht.idle
  | ok callKey =>
    cases hwork : bindOptional p.workKey with
    | error e =>
      refine .inl ?_
      unfold buy
      rw [hkey, hwork]
      exact ht.idle
    | ok workKey =>
      obtain ⟨l, hrun, hlife, heffect⟩ := buy_opens ht.alive clock p reply hkey hwork
      have hl : Ready svc { t with ledger := l } := ht.step hids rfl rfl hlife heffect
      rcases answerOrBuy_holds hids hl clock p reply _ workKey with
        hidle | ⟨h, g, u, hcall, hu, hobjects, hheld, hbuy⟩
      · refine .inl ?_
        unfold after at hidle ⊢
        rw [hrun]
        exact hidle
      · exact .inr ⟨callKey, workKey, h, g, u, rfl, rfl, hcall, hu, hobjects, hheld, hrun.trans hbuy⟩

/-- A paid route either dispatches nothing, or goes from the dispatch of its call to the reply. -/
theorem buy_cases (hids : svc.budget.ids.Separated) (ht : Ready svc t) (clock : ℕ → ℚ) (p : Purchase)
    (reply : Upstream) :
    ((buy svc clock p reply).after t).dispatched = [] ∨
    ∃ callKey workKey h g u, encode p.callKey = .ok callKey ∧ bindOptional p.workKey = .ok workKey ∧
      h.callId = callIdFor svc p.provider.name p.opClass callKey workKey ∧ OnItsWay svc u h g .sent ∧
      u.objects = t.objects.putBytes svc.sha256Hex (svc.redacted (svc.dumps p.request)) ∧
      buy svc clock p reply t = received svc clock p h g reply u := by
  rcases buy_holds hids ht clock p reply with
    hidle | ⟨callKey, workKey, h, g, u, hkey, hwork, hcall, hu, hobjects, -, hrun⟩
  · exact .inl hidle
  · exact .inr ⟨callKey, workKey, h, g, u, hkey, hwork, hcall, hu, hobjects, hrun⟩

theorem buy_ends (hids : svc.budget.ids.Separated) (ht : Ready svc t) (clock : ℕ → ℚ) (p : Purchase)
    (reply : Upstream) {condition : Prop} (hlost : ∀ error, reply = .error error → condition)
    (hanswered : ∀ r, reply = .ok r → ∀ callId h g u, OnItsWay svc u h g .sent →
      SettledWhen condition h ((p.answered callId h g r).after u)) :
    EndsSettled condition ((buy svc clock p reply).after t) := by
  rcases buy_cases hids ht clock p reply with hidle | ⟨_, _, h, g, u, -, -, -, hu, -, hrun⟩
  · exact .of_idle hidle
  · unfold after
    rw [hrun]
    cases hreply : reply with
    | error error => exact ((hu.lost hids (clock 4) p.provider.name error).of_true (hlost error hreply)).ends
    | ok r => exact (hanswered r hreply h.callId h g u hu).ends

/-- A route to an outside provider ends as the reading of its reply does. -/
theorem sold_ends (hids : svc.budget.ids.Separated) (ht : Ready svc t) (clock : ℕ → ℚ) (p : Provider)
    (missing : String) {offer : Except ProviderError Purchase} (reply : Upstream) {condition : Prop}
    (hlost : ∀ error, reply = .error error → condition)
    (hanswered : ∀ purchase, offer = .ok purchase → ∀ r, reply = .ok r → ∀ callId h g u,
      OnItsWay svc u h g .sent → SettledWhen condition h ((purchase.answered callId h g r).after u)) :
    EndsSettled condition ((sold svc clock p missing offer reply).after t) := by
  unfold sold
  split
  · exact .of_idle ht.idle
  · refine (pure_requireClosed p).bind ht.idle fun _ _ => ?_
    cases hoffer : offer with
    | error e => exact .of_idle ht.idle
    | ok purchase => exact buy_ends hids ht clock purchase reply hlost (hanswered purchase hoffer)

/-- Taking other fields out of a body leaves a field as it is. -/
theorem memberD_filter {body : List (PyStr × Json)} {key other : PyStr} {default : Json} (h : key ≠ other) :
    memberD (body.filter fun e => e.1 ≠ other) key default = memberD body key default := by
  unfold memberD member
  rw [List.find?_filter]
  congr 3
  funext e
  by_cases hk : e.1 = key
  · simp [hk, h]
  · simp [hk]

/-- How the reply to a request of each provider is read. -/
theorem exaOffer_answered {clock : ℕ → ℚ} {body : List (PyStr × Json)} {purchase : Purchase}
    (hoffer : exaOffer svc clock body = .ok purchase) : purchase.answered = exaAnswered svc clock := by
  obtain ⟨_, -, hrest⟩ := except_bind_eq_ok.mp hoffer
  split at hrest
  · cases hrest
  · cases hrest
    rfl

theorem tavilyOffer_answered {clock : ℕ → ℚ} {body : List (PyStr × Json)} {purchase : Purchase}
    (hoffer : tavilyOffer svc clock body = .ok purchase) : purchase.answered = tavilyAnswered svc clock := by
  obtain ⟨_, -, hrest⟩ := except_bind_eq_ok.mp hoffer
  obtain ⟨_, -, hrest⟩ := except_bind_eq_ok.mp hrest
  split at hrest
  · cases hrest
  · cases hrest
    rfl

theorem deepseekOffer_answered {clock : ℕ → ℚ} {body : List (PyStr × Json)} {purchase : Purchase}
    (hoffer : deepseekOffer svc clock body = .ok purchase) :
    purchase.answered = deepseekAnswered svc clock (textOf svc body "model") := by
  obtain ⟨_, -, hrest⟩ := except_bind_eq_ok.mp hoffer
  obtain ⟨_, -, hrest⟩ := except_bind_eq_ok.mp hrest
  dsimp only at hrest
  split at hrest
  · cases hrest
  · split at hrest
    · cases hrest
    · cases hrest
      have hmodel : textOf svc ((popText svc (popText svc (body.filter fun e => e.1 ≠ pyStr "_op_class")
          "_work_key").2 "_call_key").2.filter fun e => e.1 ≠ pyStr "api_key") "model" =
          textOf svc body "model" := by
        unfold textOf popText
        rw [memberD_filter (by decide), memberD_filter (by decide), memberD_filter (by decide),
          memberD_filter (by decide)]
      exact congrArg (deepseekAnswered svc clock) hmodel

theorem serve_ends (hids : svc.budget.ids.Separated) (ht : Ready svc t) (clock : ℕ → ℚ)
    (body : List (PyStr × Json)) (reply : Upstream) (p : Provider) :
    EndsSettled ((Route.paid p).Readable svc body reply) ((p.serve svc clock body reply).after t) := by
  have hlost : ∀ error, reply = .error error → (Route.paid p).Readable svc body reply := by
    rintro error rfl
    trivial
  cases p with
  | exa =>
    refine sold_ends hids ht clock .exa _ reply hlost ?_
    rintro purchase hoffer r rfl callId h g u hu
    rw [exaOffer_answered hoffer]
    exact exaAnswered_settles hids hu clock callId r
  | tavily =>
    refine sold_ends hids ht clock .tavily _ reply hlost ?_
    rintro purchase hoffer r rfl callId h g u hu
    rw [tavilyOffer_answered hoffer]
    exact tavilyAnswered_settles hids hu clock callId r
  | deepseek =>
    refine sold_ends hids ht clock .deepseek _ reply hlost ?_
    rintro purchase hoffer r rfl callId h g u hu
    rw [deepseekOffer_answered hoffer]
    exact deepseekAnswered_settles hids hu clock _ callId r

theorem chatCompletions_ends (hids : svc.budget.ids.Separated) (ht : Ready svc t) (clock : ℕ → ℚ)
    (body : List (PyStr × Json)) (cellToken : PyStr) (reply : Upstream) :
    EndsSettled ((Route.chat cellToken).Readable svc body reply)
      ((chatCompletions svc clock body cellToken reply).after t) := by
  unfold chatCompletions
  dsimp only
  split
  · exact .of_idle ht.idle
  · rw [after_bind_of_ok (getStore_run t)]
    split
    · exact .of_idle ht.idle
    · rename_i cell _
      have hu : Ready svc { t with nonce := t.nonce + 1 } := ⟨ht.idle, ht.alive, ht.calls, ht.money⟩
      rw [after_bind_of_ok (x := update _) rfl]
      refine (pure_python _).bind hu.idle fun token _ => ?_
      refine (pure_python _).bind hu.idle fun workKey _ => ?_
      obtain ⟨v, hopen, hlife, heffect⟩ := opened_run hu.alive (clock 1) "vllm" _ _ workKey
      have hv : Ready svc { t with nonce := t.nonce + 1, ledger := v } := hu.step hids rfl rfl hlife heffect
      rw [after_bind_of_ok hopen]
      rcases hv.begun hids (clock 2) _ with ⟨h, w, hbegin, -, hw⟩ | ⟨e, hbegin⟩
      · rw [after_bind_of_ok hbegin]
        rcases hw.reserved hids (clock 3) ⟨[("gpu_seconds", svc.config.gpuSecondsWorstCase)], by simp⟩ workKey with
          ⟨g, x, hreserve, halive, hfly⟩ | ⟨e, x, hreserve, hidle⟩
        · rw [after_bind_of_ok hreserve]
          refine (pure_python _).bind hw.idle fun outbound _ => ?_
          obtain ⟨z, hsend, hz, -⟩ := dispatched_run hids (t := { t with nonce := t.nonce + 1, ledger := x }) hw.idle halive hfly (clock 5) _ (some (clock 4)) (some (clock 0))
          rw [after_bind_of_ok hsend]
          cases reply with
          | error error =>
            obtain ⟨y, hend, hy, -, -⟩ := hz.ended hids (clock 6) .failedUnknown .worstCase [.errorClass error]
              (by simp [legalAttempt]) (by simp [attemptTerminal])
            refine SettledWhen.ends (h := h) ?_
            dsimp only
            rw [after_bind_of_ok (x := onLedger (failUnknown svc.calls (clock 6) h (some g) error)) hend]
            exact hy
          | ok r => exact (chatAnswered_settles hids hz clock _ _ r).ends
        · rw [after_bind_of_error hreserve]
          exact .of_idle hidle
      · rw [after_bind_of_error hbegin]
        exact .of_idle hv.idle

end

/-- The tables of calls, attempts and reservations are those that some orderly calls leave, each cut
    short anywhere. -/
def Reached (l : ExternalCallLedger) (s : Database) : Prop :=
  ∃ calls, Allowed (ExternalCalls.step l) Issued .empty calls ∧ Allowed (ExternalCalls.step l) PassesItsGroup .empty calls ∧
    Allowed (ExternalCalls.step l) (Orderly l) .empty calls ∧ sameTables (run (ExternalCalls.step l) .empty calls) s

theorem Reached.ready {svc : ProviderService} (hids : svc.budget.ids.Separated) {t : ServiceState}
    (hreached : Reached svc.calls t.ledger.store) (halive : t.ledger.life = none) (hidle : t.dispatched = []) :
    Ready svc t := by
  obtain ⟨calls, hissued, hgroups, horderly, hsame⟩ := hreached
  have hcalls : CallsSound (run (ExternalCalls.step svc.calls) .empty calls) :=
    invariant (fun s call hs hi => CallsSound.effect hs hi (step_effect svc.calls s call)) callsSound_empty hissued
  have hmoney : MoneySound svc.calls (run (ExternalCalls.step svc.calls) .empty calls) := by
    refine invariant (fun s call hs h => ?_) (moneySound_empty svc.calls) ((hissued.and hgroups).and horderly)
    exact hs.effect hids h.1.1 h.1.2 h.2 (step_effect svc.calls s call)
  have heffect : Effect svc.calls (run (ExternalCalls.step svc.calls) .empty calls) ⟨0, none, .closeCall "" ""⟩
      t.ledger.store := (Effect.refl svc.calls _ _).of_same hsame
  have hnone : Issued (run (ExternalCalls.step svc.calls) .empty calls) ⟨0, none, .closeCall "" ""⟩ := trivial
  exact ⟨hidle, halive, hcalls.effect hnone heffect, hmoney.effect hids hnone trivial trivial heffect⟩

/-- Whatever comes back from upstream, what a route has dispatched is settled when it ends if the reply
    can be read, and if it cannot it is left in flight with its reservation held. -/
theorem dispatched_settled_iff (svc : ProviderService) (hids : svc.budget.ids.Separated) (route : Route)
    (clock : ℕ → ℚ) (body : List (PyStr × Json)) (reply : Upstream) (t : ServiceState)
    (hreached : Reached svc.calls t.ledger.store) (halive : t.ledger.life = none) (hidle : t.dispatched = []) :
    ∀ h ∈ ((route.serve svc clock body reply).after t).dispatched,
      Settled ((route.serve svc clock body reply).after t).ledger.store h ↔ route.Readable svc body reply := by
  have ht := hreached.ready hids halive hidle
  cases route with
  | paid p => exact serve_ends hids ht clock body reply p
  | chat cellToken => exact chatCompletions_ends hids ht clock body cellToken reply

/-! ## A reply that cannot be read -/

/-- A service for runs on fixed inputs, none of which holds a float or a number written as text. -/
def sampleService : ProviderService where
  config := { modelAliases := [] }
  budget := Budget.sampleBudget
  redactor := ⟨[], id⟩
  text := ⟨fun _ => none, fun _ => none, fun _ => [], fun _ => encodable_nil⟩
  floats := .empty
  sha256Hex text := text
  compressedSize text := text.utf8ByteSize
  column
    | .finite q => q
    | _ => 0
  validateRequest _ _ := none
  inferenceKey cell op bodyHash nonce := s!"{cell}/{op}/{bodyHash}/{nonce}"
  cacheSalt namespaceId armId := namespaceId ++ armId
  hasKey _ := true

/-- Caps for the resources of a search. -/
def fundedCalls : List Call :=
  [⟨0, none, .ensureAccount "tavily_requests" 10⟩, ⟨0, none, .ensureAccount "tavily_credits" 10⟩,
    ⟨0, none, .ensureAccount "remote_calls" 10⟩]

def fundedState (svc : ProviderService) : ServiceState where
  ledger := ⟨run (ExternalCalls.step svc.calls) .empty fundedCalls, none⟩
  objects := .empty
  consecutiveFailures _ := 0
  cells := []
  nonce := 0
  dispatched := []

theorem fundedState_reached (svc : ProviderService) : Reached svc.calls (fundedState svc).ledger.store :=
  ⟨fundedCalls, ⟨trivial, trivial, trivial, trivial⟩, ⟨trivial, trivial, trivial, trivial⟩,
    ⟨trivial, trivial, trivial, trivial⟩, rfl, rfl, rfl⟩

def searchBody : List (PyStr × Json) :=
  [(pyStr "api_key", placeholder), (pyStr "_call_key", .str (pyStr "q1"))]

def searchAttempt : AttemptHandle := ⟨"Ctavily:search:-:q1", "ACtavily:search:-:q1#0", 0⟩

/-- A search served once, at the clock readings 0, 1, 2 and so on. -/
def searched (reply : Upstream) : ServiceState :=
  ((Route.paid .tavily).serve sampleService (fun n => n) searchBody reply).after (fundedState sampleService)

theorem dispatched_settled_iff_tavily :
    Settled (searched (.ok ⟨503, [], 1⟩)).ledger.store searchAttempt ↔
      (Route.paid .tavily).Readable sampleService searchBody (.ok ⟨503, [], 1⟩) :=
  dispatched_settled_iff sampleService plain_separated (.paid .tavily) (fun n => n) searchBody (.ok ⟨503, [], 1⟩)
    (fundedState sampleService) (fundedState_reached sampleService) rfl rfl searchAttempt (by decide +kernel)

/-- A search that succeeded and reports no usage: its attempt stays `SENT`. -/
theorem null_usage_leaves_attempt_sent :
    ¬ ∀ (svc : ProviderService) (route : Route) (clock : ℕ → ℚ) (body : List (PyStr × Json)) (reply : Upstream)
        (t : ServiceState), svc.budget.ids.Separated → Reached svc.calls t.ledger.store →
      t.ledger.life = none → t.dispatched = [] →
      ∀ h ∈ ((route.serve svc clock body reply).after t).dispatched,
        Settled ((route.serve svc clock body reply).after t).ledger.store h := by
  intro h
  have hsettled := h sampleService (.paid .tavily) (fun n => n) searchBody (.ok ⟨200, [(pyStr "usage", .null)], 1⟩)
    (fundedState sampleService) plain_separated (fundedState_reached sampleService) rfl rfl searchAttempt (by decide +kernel)
  revert hsettled
  decide +kernel

end Shapeflow.ProviderServer
