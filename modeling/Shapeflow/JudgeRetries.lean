import Shapeflow.JudgeClient

set_option autoImplicit false

/-!
# The judge's retries

A call of `judge` keeps its word as long as each reply it reaches can be read into
a record, and no pause it takes is too long to be a float.
-/
namespace Shapeflow.Judge
open Py (PyStr PyError Json Members FloatText pyStr document first toStr toInt toDict member)
open Canonical (CanonicalFailure canonicalJson ofJson)
open Fallible

/-! ## Lookups -/

theorem returns_caught {α : Type} {kinds : List PyError} {default : α} {x : Except PyError α} :
    Returns (caught kinds default x) ↔ ∀ e, x = .error e → e ∈ kinds := by
  cases x with
  | ok a => simp [caught]
  | error e => by_cases he : e ∈ kinds <;> simp [caught, he]

theorem first_error {v : Json} {e : PyError} (h : first v = .error e) : e ∈ lookupErrors := by
  unfold first at h
  split at h <;> cases h <;> decide

theorem item_error {v : Json} {key : String} {e : PyError} (h : v.item key = .error e) : e ∈ lookupErrors := by
  cases v with
  | obj ms =>
    unfold Json.item at h
    cases hm : member ms (pyStr key) with
    | none =>
      simp only [hm, Option.elim_none, Except.error.injEq] at h
      subst h
      decide
    | some w => simp [hm] at h
  | _ =>
    cases h
    decide

theorem toInt_error {rt : Runtime} {v : Json} {e : PyError} (h : toInt rt.text v = .error e) :
    e ∈ [PyError.typeError, .valueError] ∨ v = .float .infinity ∨ v = .float .negInfinity := by
  cases v with
  | bool b => cases h
  | int n => cases h
  | float x =>
    cases x with
    | infinity => exact .inr (.inl rfl)
    | negInfinity => exact .inr (.inr rfl)
    | nan =>
      cases h
      exact .inl (by decide)
    | finite q => cases h
  | str s =>
    simp only [toInt] at h
    split at h
    · cases h
    · cases h
      exact .inl (by decide)
  | null | arr _ | obj _ =>
    cases h
    exact .inl (by decide)

theorem get_ok {v w : Json} {key : PyStr} {default : Json} :
    v.get key default = .ok w ↔ ∃ ms, v = .obj ms ∧ w = Py.memberD ms key default := by
  cases v with
  | obj ms => simp [Json.get, eq_comm]
  | _ => simp [Json.get]

theorem returns_toDict_obj (ms : Members) : Returns (toDict (.obj ms)) := by
  have hfold : ∀ d : Py.PyDict, Returns (ms.foldlM (fun d e => d.insert (.str e.1) e.2) d) := by
    induction ms with
    | nil => exact returns_pure
    | cons e ms ih =>
      intro d
      rw [List.foldlM_cons]
      exact ih _
  exact hfold Dict.empty

/-! ## What a digest is made of -/

/-- `_validate` passes it, at one path or another. -/
def Valid (v : Json) : Prop := ∃ path j, Canonical.validate path (ofJson v) = .ok j

theorem valid_of_canonical {floats : FloatText} {v : Json} (h : Returns (canonicalJson floats (ofJson v))) :
    Valid v := by
  obtain ⟨raw, h⟩ := h
  unfold canonicalJson at h
  split at h
  · cases h
  · rename_i j hj
    exact ⟨_, j, hj⟩

theorem valid_members {path : PyStr} {ms : Members} {js : Members}
    (h : Canonical.validateMembers path (Canonical.ofMembers ms) = .ok js) {key : PyStr} {v : Json}
    (hv : member ms key = some v) : Valid v := by
  induction ms generalizing js with
  | nil => cases hv
  | cons e ms ih =>
    obtain ⟨k, w⟩ := e
    simp only [Canonical.ofMembers, Canonical.validateMembers] at h
    split at h
    · cases h
    · rename_i j hj
      split at h
      · cases h
      · rename_i rest hrest
        by_cases hk : k = key
        · have hw : w = v := by simpa [member, hk] using hv
          exact ⟨_, j, hw ▸ hj⟩
        · exact ih hrest (by simpa [member, hk] using hv)

theorem Valid.get {ms : Members} (h : Valid (.obj ms)) (key : String) : Valid (ms.get key) := by
  obtain ⟨path, j, h⟩ := h
  simp only [Canonical.ofJson, Canonical.validate] at h
  split at h
  · cases h
  · rename_i js hjs
    unfold Members.get Py.memberD
    cases hm : member ms (pyStr key) with
    | none => exact ⟨[], .null, rfl⟩
    | some v => exact valid_members hjs hm

theorem Valid.orElse {v w : Json} (hv : Valid v) (hw : Valid w) : Valid (v.orElse w) := by
  unfold Json.orElse
  split
  · exact hv
  · exact hw

theorem valid_empty : Valid (.obj []) := ⟨[], .obj [], rfl⟩

theorem not_valid_infinite {v : Json} (h : Valid v) : v ≠ .float .infinity ∧ v ≠ .float .negInfinity := by
  obtain ⟨path, j, h⟩ := h
  constructor
  · rintro rfl
    cases h
  · rintro rfl
    cases h

/-! ## Replies that can be read -/

/-- The usage, where there is one, is an object, and so are its token details. -/
def UsageShape (payload : Members) : Prop :=
  ∃ usage details, usageOf payload = .obj usage ∧
    (Members.get usage "completion_tokens_details").orElse (.obj []) = .obj details

/-- The first choice, where there is one, is an object. -/
def ChoiceShape (payload : Members) : Prop :=
  ∀ choices choice, member payload (pyStr "choices") = some choices → first choices = .ok choice →
    ∃ fields, choice = .obj fields

structure Recordable (floats : FloatText) (payload : Members) : Prop where
  canonical : Returns (canonicalJson floats (ofJson (.obj payload)))
  usage : UsageShape payload

section
variable {rt : Runtime}

theorem returns_reasoningTokens {payload : Members}
    (h : Returns (canonicalJson rt.floats (ofJson (.obj payload)))) :
    Returns (reasoningTokens rt (usageOf payload)) ↔ UsageShape payload := by
  have hvalid : Valid (usageOf payload) := ((valid_of_canonical h).get "usage").orElse valid_empty
  unfold reasoningTokens UsageShape
  rw [returns_bind]
  constructor
  · rintro ⟨w, hw, hread⟩
    obtain ⟨usage, husage, rfl⟩ := get_ok.mp hw
    refine ⟨usage, ?_⟩
    cases hdetails : (Members.get usage "completion_tokens_details").orElse (.obj []) with
    | obj details => exact ⟨details, husage, rfl⟩
    | _ =>
      have hnone := returns_caught.mp hread .attributeError (by
        change (Json.get ((Members.get usage "completion_tokens_details").orElse (.obj [])) _ _ >>= _) = _
        rw [hdetails]
        rfl)
      exact absurd hnone (by decide)
  · rintro ⟨usage, details, husage, hdetails⟩
    refine ⟨_, get_ok.mpr ⟨usage, husage, rfl⟩, returns_caught.mpr fun e he => ?_⟩
    change (Json.get ((Members.get usage "completion_tokens_details").orElse (.obj [])) _ _ >>= _) = _ at he
    rw [hdetails] at he
    rw [husage] at hvalid
    have hvalue : Valid ((Members.get details "reasoning_tokens").orElse (.int 0)) :=
      (((hdetails ▸ (hvalid.get _).orElse valid_empty : Valid (.obj details)).get _).orElse ⟨[], .int 0, rfl⟩)
    obtain hkind | hinf | hinf := toInt_error he
    · exact hkind
    · exact absurd hinf (not_valid_infinite hvalue).1
    · exact absurd hinf (not_valid_infinite hvalue).2

theorem returns_finishReason {payload : Members} : Returns (finishReason rt payload) ↔ ChoiceShape payload := by
  unfold finishReason ChoiceShape
  rw [returns_caught]
  constructor
  · intro h choices choice hchoices hchoice
    cases choice with
    | obj fields => exact ⟨fields, rfl⟩
    | _ =>
      refine absurd (h .attributeError ?_) (by decide)
      simp only [Json.item, hchoices, Option.elim_some, ok_bind, hchoice]
      rfl
  · intro h e he
    obtain he | ⟨choices, hchoices, he⟩ := bind_error.mp he
    · exact item_error he
    · obtain he | ⟨choice, hchoice, he⟩ := bind_error.mp he
      · exact first_error he
      · have hmember : member payload (pyStr "choices") = some choices := by
          cases hm : member payload (pyStr "choices") with
          | none => simp [Json.item, hm] at hchoices
          | some v => simpa [Json.item, hm] using hchoices
        obtain ⟨fields, rfl⟩ := h choices choice hmember hchoice
        cases he

theorem returns_extractContent (payload : Members) : Returns (extractContent payload) := by
  refine returns_caught.mpr fun e he => ?_
  obtain he | ⟨choices, -, he⟩ := bind_error.mp he
  · exact item_error he
  · obtain he | ⟨choice, -, he⟩ := bind_error.mp he
    · exact first_error he
    · obtain he | ⟨message, -, he⟩ := bind_error.mp he
      · exact item_error he
      · obtain he | ⟨content, -, he⟩ := bind_error.mp he
        · exact item_error he
        · cases he

theorem returns_mapError {α ε ε' : Type} {wrap : ε → ε'} {x : Except ε α} : Returns (x.mapError wrap) ↔ Returns x :=
  exists_congr fun _ => mapError_ok

theorem returns_record {t : Turn} {outcome : AttemptOutcome} {reason : Option Reason} {finish : PyStr} :
    Returns (record rt t outcome reason finish) ↔ Recordable rt.floats t.reply.payload := by
  unfold record
  simp only [returns_bind, returns_pure, mapError_ok]
  constructor
  · rintro ⟨usage, -, raw, hraw, tokens, htokens, -⟩
    exact ⟨⟨raw, hraw⟩, (returns_reasoningTokens ⟨raw, hraw⟩).mp ⟨tokens, htokens⟩⟩
  · intro h
    obtain ⟨raw, hraw⟩ := h.canonical
    obtain ⟨tokens, htokens⟩ := (returns_reasoningTokens h.canonical).mpr h.usage
    obtain ⟨fields, -, hfields, -⟩ := h.usage
    obtain ⟨usage, husage⟩ := returns_toDict_obj fields
    exact ⟨usage, hfields ▸ husage, raw, hraw, tokens, htokens, trivial⟩

/-- A record holds the turn, the status and the outcome it was made for. -/
theorem record_ok {t : Turn} {outcome : AttemptOutcome} {reason : Option Reason} {finish : PyStr} {a : JudgeAttempt}
    (h : record rt t outcome reason finish = .ok a) :
    a.ordinal = t.index ∧ a.status = t.reply.status ∧ a.outcome = outcome := by
  obtain ⟨usage, -, h⟩ := bind_ok.mp h
  obtain ⟨response, -, h⟩ := bind_ok.mp h
  obtain ⟨tokens, -, h⟩ := bind_ok.mp h
  cases h
  exact ⟨rfl, rfl, rfl⟩

/-! ## One turn -/

/-- No `JudgeUnavailable`. -/
def JudgeError.Escapes : JudgeError → Prop
  | .unavailable _ | .truncated _ _ => False
  | .canonical _ | .python _ => True

theorem escapes_of_canonical {α : Type} {x : Except CanonicalFailure α} {e : JudgeError}
    (h : x.mapError JudgeError.canonical = .error e) : e.Escapes := by
  cases x with
  | ok a => cases h
  | error f =>
    cases h
    trivial

theorem escapes_of_python {α : Type} {x : Except PyError α} {e : JudgeError}
    (h : x.mapError JudgeError.python = .error e) : e.Escapes := by
  cases x with
  | ok a => cases h
  | error f =>
    cases h
    trivial

theorem record_escapes {t : Turn} {outcome : AttemptOutcome} {reason : Option Reason} {finish : PyStr} {e : JudgeError}
    (h : record rt t outcome reason finish = .error e) : e.Escapes := by
  obtain h | ⟨usage, -, h⟩ := bind_error.mp h
  · exact escapes_of_python h
  · obtain h | ⟨response, -, h⟩ := bind_error.mp h
    · exact escapes_of_canonical h
    · obtain h | ⟨tokens, -, h⟩ := bind_error.mp h
      · exact escapes_of_python h
      · cases h

variable (rt) (validate : Option (Members → Option String))

/-- A 200 whose answer did not fit. -/
def CutOff (reply : Reply) : Prop := reply.status = 200 ∧ finishReason rt reply.payload = .ok (pyStr "length")

def Accepts (reply : Reply) (data : Members) : Prop :=
  reply.status = 200 ∧ ¬ CutOff rt reply ∧
    ∃ content, extractContent reply.payload = .ok content ∧ content.truthy = true ∧
      parsedBody rt validate content = .ok data

theorem Accepts.valid {reply : Reply} {data : Members} (h : Accepts rt validate reply data) :
    (validate.bind fun v => v data) = none := by
  obtain ⟨-, -, content, -, -, hbody⟩ := h
  unfold parsedBody at hbody
  split at hbody
  · split at hbody
    · cases hbody
    · rename_i parsed _
      cases hvalid : validate.bind fun v => v parsed with
      | none =>
        rw [hvalid] at hbody
        cases hbody
        exact hvalid
      | some message =>
        rw [hvalid] at hbody
        cases hbody
    · cases hbody
  · cases hbody

def FailsFast (reply : Reply) : Prop := reply.status ≠ 200 ∧ classifyStatus reply.status = .failFast

/-- No call follows this reply. -/
def Settles (reply : Reply) : Prop := FailsFast reply ∨ ∃ data, Accepts rt validate reply data

/-- A reply a turn can be made of; a pause of `2 ** 1024` halves of a second is no float. -/
structure Readable (index : ℕ) (reply : Reply) : Prop where
  recordable : Recordable rt.floats reply.payload
  choice : reply.status = 200 → ChoiceShape reply.payload
  pause : reply.status ≠ 200 → classifyStatus reply.status ≠ .failFast → index < 1024

/-- The ways a turn ends. -/
inductive Turned (t : Turn) (made : ℕ) : Except JudgeError TurnEnd → Prop
  | escaped {e : JudgeError} (hread : ¬ Readable rt t.index t.reply) (he : e.Escapes) : Turned t made (.error e)
  | stopped (hread : Readable rt t.index t.reply) (hfast : FailsFast t.reply) :
      Turned t made (.error (.unavailable (.failFast t.reply.status (made + 1))))
  | again {attempt : JudgeAttempt} {reason : Reason} {truncated : Bool} (hread : Readable rt t.index t.reply)
      (hsettles : ¬ Settles rt validate t.reply) (hordinal : attempt.ordinal = t.index)
      (houtcome : attempt.outcome ≠ .accepted) (htruncated : truncated = true ↔ CutOff rt t.reply) :
      Turned t made (.ok (.again attempt reason truncated))
  | done {attempt : JudgeAttempt} {data : Members} (hread : Readable rt t.index t.reply)
      (haccepts : Accepts rt validate t.reply data) (hordinal : attempt.ordinal = t.index)
      (houtcome : attempt.outcome = .accepted) : Turned t made (.ok (.done attempt data))

variable {rt validate}

theorem pow_lt_sub {m n k : ℕ} (h : m < n) (hk : k = n + 1) : 2 ^ n < 2 ^ k - 2 ^ m := by
  have hpow : 2 ^ m < 2 ^ n := Nat.pow_lt_pow_right (by omega) h
  rw [hk, Nat.pow_succ]
  omega

theorem backoff_eq (index : ℕ) :
    backoff index = if index < 1024 then .ok () else .error (.python .overflowError) := by
  have hlow : 2 ^ 1023 < Py.floatOverflow := pow_lt_sub (by omega : 970 < 1023) rfl
  have hhigh : Py.floatOverflow ≤ 2 ^ 1024 := Nat.sub_le _ _
  unfold backoff
  by_cases h : index < 1024
  · rw [if_pos h, if_pos ((Nat.pow_le_pow_right (by omega) (Nat.le_of_lt_succ h)).trans_lt hlow)]
  · rw [if_neg h, if_neg]
    exact Nat.not_lt.mpr (hhigh.trans (Nat.pow_le_pow_right (by omega) (by omega)))

/-- Where the status is 200 a turn ends with its record. -/
theorem turned_record {t : Turn} {made : ℕ} {outcome : AttemptOutcome} {reason : Option Reason} {finish : PyStr}
    {next : JudgeAttempt → TurnEnd} (hstatus : t.reply.status = 200) (hchoice : ChoiceShape t.reply.payload)
    (hnext : ∀ a : JudgeAttempt, Readable rt t.index t.reply → a.ordinal = t.index → a.outcome = outcome →
      Turned rt validate t made (.ok (next a))) :
    Turned rt validate t made (record rt t outcome reason finish >>= fun a => pure (next a)) := by
  cases hrecord : record rt t outcome reason finish with
  | error e =>
    refine .escaped (fun hread => ?_) (record_escapes hrecord)
    obtain ⟨a, ha⟩ := returns_record.mpr hread.recordable
    rw [hrecord] at ha
    cases ha
  | ok a =>
    obtain ⟨hordinal, -, houtcome⟩ := record_ok hrecord
    have hread : Readable rt t.index t.reply :=
      ⟨returns_record.mp ⟨a, hrecord⟩, fun _ => hchoice, fun hne => absurd hstatus hne⟩
    exact hnext a hread hordinal houtcome

theorem turn_turned (t : Turn) (made : ℕ) : Turned rt validate t made (turn rt validate t made) := by
  unfold turn
  by_cases hstatus : t.reply.status ≠ 200
  · rw [if_pos hstatus]
    have hno : ∀ data, ¬ Accepts rt validate t.reply data := fun _ h => hstatus h.1
    cases hrecord : record rt t .httpError (some (.http t.reply.status)) [] with
    | error e =>
      refine .escaped (fun hread => ?_) (record_escapes hrecord)
      obtain ⟨a, ha⟩ := returns_record.mpr hread.recordable
      rw [hrecord] at ha
      cases ha
    | ok attempt =>
      have hrecordable := returns_record.mp ⟨attempt, hrecord⟩
      obtain ⟨hordinal, -, houtcome⟩ := record_ok hrecord
      rw [ok_bind]
      by_cases hfast : classifyStatus t.reply.status = .failFast
      · rw [if_pos hfast]
        exact .stopped ⟨hrecordable, fun h => absurd h hstatus, fun _ h => absurd hfast h⟩ ⟨hstatus, hfast⟩
      · rw [if_neg hfast, backoff_eq]
        by_cases hpause : t.index < 1024
        · rw [if_pos hpause, ok_bind]
          refine .again ⟨hrecordable, fun h => absurd h hstatus, fun _ _ => hpause⟩ ?_ hordinal (by simp [houtcome]) ?_
          · rintro (h | ⟨data, h⟩)
            · exact hfast h.2
            · exact hno data h
          · exact ⟨nofun, fun h => absurd h.1 hstatus⟩
        · rw [if_neg hpause]
          exact .escaped (fun hread => hpause (hread.pause hstatus hfast)) trivial
  · rw [if_neg hstatus]
    have hok : t.reply.status = 200 := not_not.mp hstatus
    have hslow : ¬ FailsFast t.reply := fun h => h.1 hok
    cases hfinish : finishReason rt t.reply.payload with
    | error e =>
      refine .escaped (fun hread => ?_) trivial
      obtain ⟨finish, hreturns⟩ := returns_finishReason.mpr (hread.choice hok)
      rw [hfinish] at hreturns
      cases hreturns
    | ok finish =>
      have hchoice : ChoiceShape t.reply.payload := returns_finishReason.mp ⟨finish, hfinish⟩
      have hcut : CutOff rt t.reply ↔ finish = pyStr "length" := by simp [CutOff, hok, hfinish]
      change Turned rt validate t made (if finish = pyStr "length" then _ else _)
      by_cases hlength : finish = pyStr "length"
      · rw [if_pos hlength]
        refine turned_record hok hchoice fun a hread hordinal houtcome => ?_
        refine .again hread ?_ hordinal (by simp [houtcome]) (iff_of_true rfl (hcut.mpr hlength))
        rintro (h | ⟨data, h⟩)
        · exact hslow h
        · exact h.2.1 (hcut.mpr hlength)
      · rw [if_neg hlength]
        have hnot : ¬ CutOff rt t.reply := mt hcut.mp hlength
        obtain ⟨content, hcontent⟩ := returns_extractContent t.reply.payload
        have hsame : ∀ {other : Json}, extractContent t.reply.payload = .ok other → other = content := by
          intro other h
          rw [hcontent] at h
          exact (Except.ok.inj h).symm
        rw [hcontent]
        change Turned rt validate t made (if content.truthy = false then _ else _)
        by_cases htruthy : content.truthy = false
        · rw [if_pos htruthy]
          refine turned_record hok hchoice fun a hread hordinal houtcome => ?_
          refine .again hread ?_ hordinal (by simp [houtcome]) (iff_of_false nofun hnot)
          rintro (h | ⟨data, -, -, other, hother, hprint, -⟩)
          · exact hslow h
          · rw [hsame hother, htruthy] at hprint
            cases hprint
        · rw [if_neg htruthy]
          cases hbody : parsedBody rt validate content with
          | error why =>
            refine turned_record hok hchoice fun a hread hordinal houtcome => ?_
            refine .again hread ?_ hordinal (by simp [houtcome]) (iff_of_false nofun hnot)
            rintro (h | ⟨data, -, -, other, hother, -, hdata⟩)
            · exact hslow h
            · rw [hsame hother, hbody] at hdata
              cases hdata
          | ok data =>
            refine turned_record hok hchoice fun a hread hordinal houtcome => ?_
            have haccepts : Accepts rt validate t.reply data :=
              ⟨hok, hnot, content, hcontent, Bool.eq_true_of_not_eq_false htruthy, hbody⟩
            exact .done hread haccepts hordinal houtcome

end

/-! ## The loop -/

/-- One record a call, in order, the last one accepted and of the data that is returned. -/
structure Answers (rt : Runtime) (validate : Option (Members → Option String)) (replies : ℕ → Reply) (calls : ℕ)
    (response : JudgeResponse) : Prop where
  ordinals : response.attempts.map (·.ordinal) = List.range calls
  accepted : ∃ earlier last, response.attempts = earlier ++ [last] ∧ last.outcome = .accepted ∧
    ∀ a ∈ earlier, a.outcome ≠ .accepted
  data : Accepts rt validate (replies (calls - 1)) response.data
  valid : (validate.bind fun v => v response.data) = none

/-- What `judge` promises of a call, `limit` the calls it may make. -/
structure KeepsWord (rt : Runtime) (validate : Option (Members → Option String)) (replies : ℕ → Reply) (limit : ℕ)
    (run : Judged) : Prop where
  bounded : run.sent.length ≤ limit
  answers : ∀ response, run.outcome = .ok response → Answers rt validate replies run.sent.length response
  unavailable : ∀ e, run.outcome = .error e → ¬ e.Escapes
  truncated : (∃ n maxTokens, run.outcome = .error (.truncated n maxTokens)) ↔
    ∀ i < run.sent.length, CutOff rt (replies i)

/-- The state of the loop before the turn of `index`. -/
structure Gathers (rt : Runtime) (replies : ℕ → Reply) (index : ℕ) (g : Gathered) : Prop where
  sent : g.sent.length = index
  ordinals : g.attempts.map (·.ordinal) = List.range index
  outcomes : ∀ a ∈ g.attempts, a.outcome ≠ .accepted
  truncated : g.truncatedEveryTime = true ↔ ∀ i < index, CutOff rt (replies i)

/-- Each reply from `index` on that is reached can be read. -/
def ReadableFrom (rt : Runtime) (validate : Option (Members → Option String)) (replies : ℕ → Reply)
    (left index : ℕ) : Prop :=
  ∀ i, index ≤ i → i < index + left → (∀ j, index ≤ j → j < i → ¬ Settles rt validate (replies j)) →
    Readable rt i (replies i)

section
variable {rt : Runtime} {validate : Option (Members → Option String)} {replies : ℕ → Reply}

theorem readableFrom_succ {left index : ℕ} :
    ReadableFrom rt validate replies (left + 1) index ↔
      Readable rt index (replies index) ∧
        (¬ Settles rt validate (replies index) → ReadableFrom rt validate replies left (index + 1)) := by
  constructor
  · intro h
    refine ⟨h index le_rfl (by omega) (fun j hj hlt => absurd hlt (by omega)), fun hsettles i hi hlt hbefore => ?_⟩
    refine h i (by omega) (by omega) fun j hj hjlt => ?_
    rcases Nat.eq_or_lt_of_le hj with rfl | hlater
    · exact hsettles
    · exact hbefore j hlater hjlt
  · rintro ⟨hread, hrest⟩ i hi hlt hbefore
    rcases Nat.eq_or_lt_of_le hi with rfl | hlater
    · exact hread
    · exact hrest (hbefore index le_rfl hlater) i hlater (by omega) fun j hj hjlt => hbefore j (by omega) hjlt

theorem Gathers.again {index : ℕ} {g : Gathered} (h : Gathers rt replies index g) {request : Json}
    {attempt : JudgeAttempt} {reason : Reason} {truncated : Bool} (hordinal : attempt.ordinal = index)
    (houtcome : attempt.outcome ≠ .accepted) (htruncated : truncated = true ↔ CutOff rt (replies index)) :
    Gathers rt replies (index + 1)
      ⟨g.sent ++ [request], g.attempts ++ [attempt], reason, g.truncatedEveryTime && truncated⟩ where
  sent := by rw [List.length_append, h.sent, List.length_singleton]
  ordinals := by rw [List.map_append, h.ordinals, List.map_singleton, hordinal, List.range_succ]
  outcomes := by
    intro a ha
    rcases List.mem_append.mp ha with ha | ha
    · exact h.outcomes a ha
    · exact List.mem_singleton.mp ha ▸ houtcome
  truncated := by
    rw [Bool.and_eq_true, h.truncated, htruncated]
    constructor
    · rintro ⟨hbefore, hlast⟩ i hi
      rcases Nat.lt_succ_iff_lt_or_eq.mp hi with hlt | rfl
      · exact hbefore i hlt
      · exact hlast
    · exact fun hall => ⟨fun i hi => hall i (Nat.lt_succ_of_lt hi), hall index (Nat.lt_succ_self index)⟩

variable (judge : DeepSeekJudge) (system user : PyStr)

/-- The loop kept its word, or some exception of a reply that could not be read escaped; the induction is on the
    turns that are left. -/
theorem judgeLoop_spec (hprompt : Returns (canonicalJson rt.floats (ofJson (messages system user)))) (left : ℕ) :
    ∀ {index : ℕ} {g : Gathered}, 0 < index + left → Gathers rt replies index g →
      (ReadableFrom rt validate replies left index →
        KeepsWord rt validate replies (index + left)
          (judgeLoop rt judge validate system user replies left index g)) ∧
      (¬ ReadableFrom rt validate replies left index →
        ∃ e, (judgeLoop rt judge validate system user replies left index g).outcome = .error e ∧ e.Escapes) := by
  obtain ⟨raw, hraw⟩ := hprompt
  induction left with
  | zero =>
    intro index g hpos hg
    refine ⟨fun _ => ?_, fun h => absurd (fun i hi hlt => absurd hlt (by omega)) h⟩
    have hsome : g.attempts ≠ [] := by
      rintro hnil
      have hlength := congrArg List.length hg.ordinals
      simp [hnil] at hlength
      omega
    unfold judgeLoop exhausted
    by_cases hcut : g.truncatedEveryTime = true
    · rw [if_pos ⟨hcut, hsome⟩]
      refine ⟨hg.sent.le, nofun, ?_, iff_of_true ⟨_, _, rfl⟩ (hg.sent ▸ hg.truncated.mp hcut)⟩
      rintro e ⟨⟩ h
      exact h
    · rw [if_neg fun h => hcut h.1]
      refine ⟨hg.sent.le, nofun, ?_, iff_of_false nofun (hg.sent ▸ mt hg.truncated.mpr hcut)⟩
      rintro e ⟨⟩ h
      exact h
  | succ left ih =>
    intro index g hpos hg
    rw [readableFrom_succ]
    unfold judgeLoop
    simp only [hraw]
    have hturned : Turned rt validate _ _ (turn rt validate
        ⟨index, rt.sha256Hex raw, judge.sampling.forAttempt index, replies index⟩ g.attempts.length) := turn_turned _ _
    generalize turn rt validate ⟨index, rt.sha256Hex raw, judge.sampling.forAttempt index, replies index⟩
      g.attempts.length = ended at hturned ⊢
    have hlength : ∀ request : Json, (g.sent ++ [request]).length = index + 1 := by
      intro request
      rw [List.length_append, hg.sent, List.length_singleton]
    have hbounded : ∀ request : Json, (g.sent ++ [request]).length ≤ index + (left + 1) := by
      intro request
      rw [hlength]
      omega
    cases hturned with
    | escaped hread he => exact ⟨fun h => absurd h.1 hread, fun _ => ⟨_, rfl, he⟩⟩
    | stopped hread hfast =>
      refine ⟨fun _ => ⟨hbounded _, nofun, ?_, iff_of_false nofun fun hall => ?_⟩, fun h => absurd ⟨hread, ?_⟩ h⟩
      · rintro e ⟨⟩ h
        exact h
      · exact hfast.1 (hall index (by rw [hlength]; omega)).1
      · exact fun hsettles => absurd (.inl hfast) hsettles
    | again hread hsettles hordinal houtcome htruncated =>
      have hpos' : 0 < index + 1 + left := by omega
      obtain ⟨hkeeps, hescapes⟩ := ih hpos' (hg.again hordinal houtcome htruncated)
      refine ⟨fun h => ?_, fun h => hescapes fun hrest => h ⟨hread, fun _ => hrest⟩⟩
      have hlimit : index + 1 + left = index + (left + 1) := by omega
      rw [hlimit] at hkeeps
      exact hkeeps (h.2 hsettles)
    | done hread haccepts hordinal houtcome =>
      rename_i attempt data
      refine ⟨fun _ => ⟨hbounded _, ?_, nofun, iff_of_false nofun fun hall => ?_⟩, fun h => absurd ⟨hread, ?_⟩ h⟩
      · rintro response ⟨⟩
        refine ⟨?_, ⟨g.attempts, attempt, rfl, houtcome, hg.outcomes⟩, ?_, haccepts.valid⟩
        · rw [hlength, List.map_append, hg.ordinals, List.map_singleton, hordinal, List.range_succ]
        · rw [hlength]
          exact haccepts
      · exact haccepts.2.1 (hall index (by rw [hlength]; omega))
      · exact fun hsettles => absurd (.inr ⟨data, haccepts⟩) hsettles

end

/-! ## A whole call -/

theorem returns_messages {floats : FloatText} {system user : PyStr} :
    Returns (canonicalJson floats (ofJson (messages system user))) ↔ Py.Encodable system ∧ Py.Encodable user := by
  have hrole : ∀ s : String, Py.Encodable (pyStr s) := Py.pyStr_encodable
  constructor
  · intro h
    obtain ⟨path, j, hj⟩ := valid_of_canonical h
    by_contra hno
    by_cases hsystem : Py.Encodable system <;> by_cases huser : Py.Encodable user <;>
      simp_all [messages, document, ofJson, Canonical.ofItems, Canonical.ofMembers, Canonical.validate,
        Canonical.validateItems, Canonical.validateMembers, Canonical.reject]
  · rintro ⟨hsystem, huser⟩
    refine ⟨_, Canonical.canonicalJson_admitted (Canonical.admittedItems_iff.mpr ?_)⟩
    have hmessage : ∀ (role : String) (text : PyStr), Py.Encodable text →
        Canonical.Admitted floats (document [("role", .str (pyStr role)), ("content", .str text)]) := by
      intro role text htext
      refine Canonical.admitted_document (by simp [Py.DistinctFields]) ?_
      simp only [List.forall_mem_cons, List.not_mem_nil, false_implies, implies_true, and_true]
      exact ⟨hrole role, htext⟩
    simp only [List.forall_mem_cons, List.not_mem_nil, false_implies, implies_true, and_true]
    exact ⟨hmessage "system" system hsystem, hmessage "user" user huser⟩

/-- The prompt can be encoded, and each reply that is reached can be read. -/
structure Answerable (rt : Runtime) (validate : Option (Members → Option String)) (maxRetries : ℕ)
    (system user : PyStr) (replies : ℕ → Reply) : Prop where
  prompt : Py.Encodable system ∧ Py.Encodable user
  replies : ∀ i ≤ maxRetries, (∀ j < i, ¬ Settles rt validate (replies j)) → Readable rt i (replies i)

/-- `judge` keeps its word exactly when no reply it reaches, nor its prompt, makes some other exception escape. -/
theorem judgeOnce_keepsWord_iff (rt : Runtime) (judge : DeepSeekJudge) (validate : Option (Members → Option String))
    (system user : PyStr) (replies : ℕ → Reply) :
    KeepsWord rt validate replies (judge.maxRetries + 1) (judgeOnce rt judge validate system user replies) ↔
      Answerable rt validate judge.maxRetries system user replies := by
  have hreadable : ReadableFrom rt validate replies (judge.maxRetries + 1) 0 ↔
      ∀ i ≤ judge.maxRetries, (∀ j < i, ¬ Settles rt validate (replies j)) → Readable rt i (replies i) := by
    simp only [ReadableFrom, Nat.zero_le, true_implies, Nat.zero_add, Nat.lt_succ_iff]
  by_cases hprompt : Py.Encodable system ∧ Py.Encodable user
  · have hstart : Gathers rt replies 0 ⟨[], [], .unknown, true⟩ := ⟨rfl, rfl, nofun, iff_of_true rfl nofun⟩
    obtain ⟨hkeeps, hescapes⟩ := @judgeLoop_spec rt validate replies judge system user
      (returns_messages.mpr hprompt) (judge.maxRetries + 1) 0 _ (by omega) hstart
    rw [Nat.zero_add] at hkeeps
    constructor
    · intro h
      refine ⟨hprompt, hreadable.mp ?_⟩
      by_contra hno
      obtain ⟨e, he, hescaped⟩ := hescapes hno
      exact h.unavailable e he hescaped
    · exact fun h => hkeeps (hreadable.mpr h.replies)
  · refine iff_of_false (fun h => ?_) fun h => hprompt h.prompt
    cases hcanonical : canonicalJson rt.floats (ofJson (messages system user)) with
    | ok raw => exact hprompt (returns_messages.mp ⟨raw, hcanonical⟩)
    | error e =>
      have hrun : (judgeOnce rt judge validate system user replies).outcome = .error (.canonical e) := by
        unfold judgeOnce judgeLoop
        rw [hcanonical]
      exact h.unavailable _ hrun trivial

/-! ## A choice that is no object -/

theorem plain_encodable : ∀ v : Json, Py.Encodable ((fun _ : Json => ([] : PyStr)) v) := fun _ _ h => nomatch h

def plainRuntime : Runtime where
  sha256Hex _ := ""
  floats := .empty
  text := ⟨fun _ => none, fun _ => none, fun _ => [], plain_encodable⟩

def plainJudge : DeepSeekJudge where
  model := pyStr "m"
  apiKey := pyStr "k"
  model_resolved := by decide

/-- `{"choices": [null]}` -/
def nullChoice : Reply := ⟨200, [(pyStr "choices", .arr [.null])]⟩

theorem not_judgeOnce_keepsWord :
    ¬ KeepsWord plainRuntime none (fun _ => nullChoice) (plainJudge.maxRetries + 1)
      (judgeOnce plainRuntime plainJudge none (pyStr "s") (pyStr "u") fun _ => nullChoice) := by
  intro h
  have hrun : (judgeOnce plainRuntime plainJudge none (pyStr "s") (pyStr "u") fun _ => nullChoice).outcome =
      .error (.python .attributeError) := by rfl
  exact h.unavailable _ hrun trivial

end Shapeflow.Judge
