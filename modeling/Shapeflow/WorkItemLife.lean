import Mathlib.Logic.Relation
import Shapeflow.WorkLedger

set_option autoImplicit false

/-!
# The life of one work item

What the work ledger is for, seen from a single item: a state, a retry count
and the tries made at it. The identifiers of tries and their results are left
abstract. `Next ok` is one event in a life, where `ok` says which endings of a
try may be reported.
-/
namespace Shapeflow.WorkItemLife
open WorkLedger Table Relation

structure Try (ι ρ : Type) where
  id : ι
  state : WorkState
  result : Option ρ

structure Life (ι ρ : Type) where
  state : WorkState
  retryCount : ℕ
  maxRetries : ℤ
  tries : List (Try ι ρ)

variable {ι ρ : Type}

def Try.live (t : Try ι ρ) : Bool := t.state ∈ inProgress

def Try.done (t : Try ι ρ) : Bool := t.state = .committed

def fresh (maxRetries : ℤ) : Life ι ρ := ⟨.pending, 0, maxRetries, []⟩

namespace Life

def live (l : Life ι ρ) : Bool := l.state ∈ inProgress

/-- Where an ended try may send the item. -/
def Routes (l : Life ι ρ) (target : WorkState) : Prop :=
  (target = .pending ∧ (l.retryCount : ℤ) + 1 ≤ l.maxRetries) ∨
    target = .failedFinal ∨ target = .failedUnknown

end Life

/-- The item's state and the states of its tries are two copies of one state. -/
structure Coupled (l : Life ι ρ) : Prop where
  distinct : (l.tries.map (·.id)).Nodup
  agree : ∀ t ∈ l.tries, t.live → t.state = l.state
  one : l.tries.countP Try.live = if l.live then 1 else 0

theorem Coupled.not_live {l : Life ι ρ} (h : Coupled l) (hl : l.live = false) {t : Try ι ρ}
    (ht : t ∈ l.tries) : t.live = false := by
  have hzero := h.one
  rw [hl] at hzero
  have := List.countP_eq_zero.mp hzero t ht
  simpa using this

theorem Coupled.live_of_live {l : Life ι ρ} (h : Coupled l) {t : Try ι ρ} (ht : t ∈ l.tries)
    (hlive : t.live) : l.live := by
  have hst := h.agree t ht hlive
  unfold Life.live
  rw [← hst]
  exact hlive

theorem coupled_fresh (m : ℤ) : Coupled (fresh m : Life ι ρ) where
  distinct := List.nodup_nil
  agree := by simp [fresh]
  one := by simp [fresh, Life.live, inProgress]

/-- The endings that keep the copies equal: of the try that holds the item, or of an
    item that nobody holds. -/
def Holds (l : Life ι ρ) (t : Try ι ρ) (_ : WorkState) : Prop := t.live ∨ l.live = false

/-- An item has a committed try exactly when it is committed itself, and then only one. -/
def Settled (l : Life ι ρ) : Prop :=
  l.tries.countP Try.done = if l.state = .committed then 1 else 0

theorem settled_fresh (m : ℤ) : Settled (fresh m : Life ι ρ) := by
  simp [Settled, fresh]

/-- The endings that leave a terminal item where it is. -/
def Lasting (l : Life ι ρ) (t : Try ι ρ) (target : WorkState) : Prop :=
  t.live ∨ l.state = .pending ∨ (l.state ∈ terminalStates ∧ target = l.state)

theorem terminal_not_live {s : WorkState} (h : s ∈ terminalStates) : s ∉ inProgress ∧ s ≠ .pending := by
  cases s <;> simp [terminalStates, inProgress] at h ⊢

theorem Lasting.holds {l : Life ι ρ} {t : Try ι ρ} {target : WorkState} (h : Lasting l t target) :
    Holds l t target := by
  rcases h with hlive | hpending | ⟨hterm, -⟩
  · exact .inl hlive
  · exact .inr (by simp [Life.live, hpending, inProgress])
  · exact .inr (decide_eq_false (terminal_not_live hterm).1)

/-- Every try but the one that holds or ended the item was paid for by a retry. -/
structure Bounded (l : Life ι ρ) : Prop where
  retries : (l.retryCount : ℤ) ≤ max 0 l.maxRetries
  tries : l.tries.length ≤ l.retryCount + if l.state = .pending then 0 else 1

theorem bounded_fresh (m : ℤ) : Bounded (fresh m : Life ι ρ) where
  retries := le_max_left 0 m
  tries := by simp [fresh]

theorem legal_live {s target : WorkState} (h : target ∈ legal s) (ht : s ≠ .pending) :
    s ∈ inProgress := by
  cases s <;> simp [legal, inProgress] at h ht ⊢

theorem disposition_not_live {d : WorkState} (h : d ∈ dispositions) :
    d ∉ inProgress ∧ d ≠ .committed := by
  cases d <;> simp [dispositions, inProgress] at h ⊢

theorem Life.Routes.not_live {l : Life ι ρ} {target : WorkState} (h : l.Routes target) :
    target ∉ inProgress ∧ target ≠ .committed := by
  rcases h with ⟨rfl, -⟩ | rfl | rfl <;> simp [inProgress]

/-! ## Events -/

variable [DecidableEq ι]

namespace Life

def tried (l : Life ι ρ) (id : ι) (f : Try ι ρ → Try ι ρ) : List (Try ι ρ) :=
  updated (fun t => t.id = id) f l.tries

def claimed (l : Life ι ρ) (id : ι) : Life ι ρ :=
  { l with state := .claimed, tries := l.tries ++ [⟨id, .claimed, none⟩] }

def advanced (l : Life ι ρ) (id : ι) (target : WorkState) : Life ι ρ :=
  { l with state := target, tries := l.tried id fun t => { t with state := target } }

def committed (l : Life ι ρ) (id : ι) (result : ρ) : Life ι ρ :=
  { l with
    state := .committed
    tries := l.tried id fun t => { t with state := .committed, result := some result } }

def blocked (l : Life ι ρ) : Life ι ρ := { l with state := .blockedBudget }

/-- A try ends as `d` and the item goes to `target`; going back to `PENDING` uses up a retry. -/
def ended (l : Life ι ρ) (id : ι) (d : WorkState) (g : Option ρ → Option ρ) (target : WorkState) :
    Life ι ρ :=
  { l with
    state := target
    retryCount := if target = .pending then l.retryCount + 1 else l.retryCount
    tries := l.tried id fun t => { t with state := d, result := g t.result } }

end Life

inductive Next (ok : Life ι ρ → Try ι ρ → WorkState → Prop) : Life ι ρ → Life ι ρ → Prop
  | claimed (l : Life ι ρ) (id : ι) (hpending : l.state = .pending)
      (hnew : ∀ t ∈ l.tries, t.id ≠ id) : Next ok l (l.claimed id)
  | advanced (l : Life ι ρ) (t : Try ι ρ) (target : WorkState) (ht : t ∈ l.tries)
      (hsame : l.state = t.state) (hlegal : target ∈ legal t.state)
      (htarget : target ∈ [WorkState.materialized, .validated]) : Next ok l (l.advanced t.id target)
  | committed (l : Life ι ρ) (t : Try ι ρ) (result : ρ) (ht : t ∈ l.tries)
      (hsame : l.state = t.state) (hvalidated : t.state = .validated) :
      Next ok l (l.committed t.id result)
  | blocked (l : Life ι ρ) (hpending : l.state = .pending) : Next ok l l.blocked
  | ended (l : Life ι ρ) (t : Try ι ρ) (d : WorkState) (g : Option ρ → Option ρ)
      (target : WorkState) (ht : t ∈ l.tries) (hd : d ∈ dispositions) (hroute : l.Routes target)
      (hok : ok l t target) : Next ok l (l.ended t.id d g target)

theorem Next.mono {ok ok' : Life ι ρ → Try ι ρ → WorkState → Prop}
    (h : ∀ l t target, ok l t target → ok' l t target) {l m : Life ι ρ} (hn : Next ok l m) :
    Next ok' l m := by
  cases hn with
  | claimed id hpending hnew => exact .claimed l id hpending hnew
  | advanced t target ht hsame hlegal htarget => exact .advanced l t target ht hsame hlegal htarget
  | committed t result ht hsame hvalidated => exact .committed l t result ht hsame hvalidated
  | blocked hpending => exact .blocked l hpending
  | ended t d g target ht hd hroute hok => exact .ended l t d g target ht hd hroute (h _ _ _ hok)

/-! ## At most one live try -/

theorem eq_of_countP_eq_one {α : Type} {p : α → Bool} {xs : List α} (h : xs.countP p = 1) {x y : α}
    (hx : x ∈ xs) (hy : y ∈ xs) (hpx : p x) (hpy : p y) : x = y := by
  rw [List.countP_eq_length_filter] at h
  obtain ⟨z, hz⟩ := List.length_eq_one_iff.mp h
  have hx' : x ∈ xs.filter p := List.mem_filter.mpr ⟨hx, hpx⟩
  have hy' : y ∈ xs.filter p := List.mem_filter.mpr ⟨hy, hpy⟩
  rw [hz, List.mem_singleton] at hx' hy'
  rw [hx', hy']

/-- Rewriting the try that holds the item, or any try of an item that nobody holds,
    keeps the two copies equal when both are rewritten alike. -/
theorem Coupled.rewrite {l : Life ι ρ} (h : Coupled l) {t : Try ι ρ} (ht : t ∈ l.tries)
    {f : Try ι ρ → Try ι ρ} {target : WorkState} {n : ℕ} (hid : ∀ x, (f x).id = x.id)
    (hheld : t.live ∨ l.live = false) (hlive : (f t).live = decide (target ∈ inProgress))
    (hstate : (f t).live → t.live ∧ (f t).state = target) :
    Coupled ⟨target, n, l.maxRetries, l.tried t.id f⟩ := by
  have hcount := countP_updated Try.id f Try.live h.distinct ht
  have hone := h.one
  -- every live try after the step is the rewritten one
  have hothers : ∀ x ∈ l.tries, x.live → x.id = t.id := by
    intro x hx hxlive
    rcases hheld with htlive | hnone
    · have hcnt : l.tries.countP Try.live = 1 := by
        rw [hone, h.live_of_live ht htlive]
        rfl
      rw [eq_of_countP_eq_one hcnt hx ht hxlive htlive]
    · rw [h.not_live hnone hx] at hxlive
      cases hxlive
  refine ⟨?_, ?_, ?_⟩
  · change ((updated _ f l.tries).map (·.id)).Nodup
    rw [map_updated _ fun x _ _ => hid x]
    exact h.distinct
  · intro y hy hylive
    obtain ⟨x, hx, rfl⟩ := mem_updated.mp hy
    by_cases hxt : x.id = t.id
    · have hxeq : x = t := eq_of_key h.distinct hx ht hxt
      subst hxeq
      simp only [decide_true, if_true] at hylive ⊢
      exact (hstate hylive).2
    · simp only [hxt, decide_false, Bool.false_eq_true, if_false] at hylive
      exact absurd (hothers x hx hylive) hxt
  · change (updated _ f l.tries).countP Try.live = if decide (target ∈ inProgress) then 1 else 0
    rw [← hlive]
    rcases hheld with htlive | hnone
    · rw [h.live_of_live ht htlive] at hone
      rw [htlive] at hcount
      simp only [if_true] at hone hcount
      omega
    · have hft : (f t).live = false := by
        by_contra hcon
        have htl := (hstate (by simpa using hcon)).1
        rw [h.not_live hnone ht] at htl
        cases htl
      rw [h.not_live hnone ht, hft] at hcount
      rw [hnone] at hone
      rw [hft]
      simp only [Bool.false_eq_true, if_false] at hone hcount ⊢
      omega

omit [DecidableEq ι] in
theorem Coupled.claimed {l : Life ι ρ} (h : Coupled l) {id : ι} (hpending : l.state = .pending)
    (hnew : ∀ t ∈ l.tries, t.id ≠ id) : Coupled (l.claimed id) := by
  have hdead : l.live = false := by simp [Life.live, hpending, inProgress]
  refine ⟨?_, ?_, ?_⟩
  · simp only [Life.claimed, List.map_append, List.map_cons, List.map_nil, List.nodup_append]
    refine ⟨h.distinct, List.nodup_singleton _, ?_⟩
    intro a ha b hb
    obtain ⟨t, ht, rfl⟩ := List.mem_map.mp ha
    rw [List.mem_singleton.mp hb]
    exact hnew t ht
  · intro t ht htlive
    rcases List.mem_append.mp ht with hold | hnew'
    · rw [h.not_live hdead hold] at htlive
      cases htlive
    · rw [List.mem_singleton.mp hnew']
      rfl
  · have hzero := h.one
    rw [hdead] at hzero
    simp only [Life.claimed, List.countP_append, hzero]
    rfl

theorem Coupled.next {l m : Life ι ρ} (h : Coupled l) (hn : Next Holds l m) : Coupled m := by
  cases hn with
  | claimed id hpending hnew => exact h.claimed hpending hnew
  | advanced t target ht hsame hlegal htarget =>
    have htlive : t.live := by
      refine decide_eq_true (legal_live hlegal ?_)
      intro hp
      rw [hp] at hlegal
      simp only [legal, List.mem_cons, List.not_mem_nil, or_false] at hlegal htarget
      rcases hlegal with rfl | rfl <;> simp at htarget
    exact h.rewrite ht (fun _ => rfl) (.inl htlive) rfl fun _ => ⟨htlive, rfl⟩
  | committed t result ht hsame hvalidated =>
    have htlive : t.live := by simp [Try.live, hvalidated, inProgress]
    exact h.rewrite ht (fun _ => rfl) (.inl htlive) rfl fun _ => ⟨htlive, rfl⟩
  | blocked hpending =>
    have hdead : l.live = false := by simp [Life.live, hpending, inProgress]
    have hone := h.one
    rw [hdead] at hone
    refine ⟨h.distinct, ?_, hone⟩
    intro t ht htlive
    rw [h.not_live hdead ht] at htlive
    cases htlive
  | ended t d g target ht hd hroute hok =>
    have hdl := (disposition_not_live hd).1
    have htl := (Life.Routes.not_live hroute).1
    have hft : Try.live { t with state := d, result := g t.result } = false := decide_eq_false hdl
    refine h.rewrite ht (fun _ => rfl) hok ?_ ?_
    · exact hft.trans (decide_eq_false htl).symm
    · intro hcon
      rw [hft] at hcon
      cases hcon

/-- An ending that is neither of the holder nor of a free item breaks the coupling. -/
theorem not_coupled_ended {l : Life ι ρ} (h : Coupled l) {t : Try ι ρ} (ht : t ∈ l.tries)
    {d target : WorkState} {g : Option ρ → Option ρ} (hd : d ∈ dispositions)
    (hroute : l.Routes target) (hlate : ¬ Holds l t target) :
    (l.ended t.id d g target).tries.countP Try.live = 1 ∧ (l.ended t.id d g target).live = false := by
  have hlive : l.live = true := by
    by_contra hcon
    exact hlate (.inr (by simpa using hcon))
  have htdead : t.live = false := by
    by_contra hcon
    exact hlate (.inl (by simpa using hcon))
  have hcount := countP_updated Try.id
    (fun x : Try ι ρ => { x with state := d, result := g x.result }) Try.live h.distinct ht
  have hone := h.one
  have hft : Try.live { t with state := d, result := g t.result } = false :=
    decide_eq_false (disposition_not_live hd).1
  refine ⟨?_, decide_eq_false (Life.Routes.not_live hroute).1⟩
  change (updated _ _ l.tries).countP Try.live = 1
  rw [hlive] at hone
  rw [htdead, hft] at hcount
  simp only [if_true, Bool.false_eq_true, if_false] at hone hcount
  omega

/-! ## Terminal lives -/

/-- Rewriting a try of an item that is not committed. -/
theorem Settled.rewrite {l : Life ι ρ} (h : Settled l) (hc : Coupled l) {t : Try ι ρ}
    (ht : t ∈ l.tries) {f : Try ι ρ → Try ι ρ} {target : WorkState} {n : ℕ}
    (hopen : l.state ≠ .committed) (hdone : (f t).done = decide (target = .committed)) :
    Settled ⟨target, n, l.maxRetries, l.tried t.id f⟩ := by
  have hcount := countP_updated Try.id f Try.done hc.distinct ht
  have hzero : l.tries.countP Try.done = 0 := by
    rw [h, if_neg hopen]
  have htnot : t.done = false := by
    have := List.countP_eq_zero.mp hzero t ht
    simpa using this
  rw [htnot, hzero, hdone] at hcount
  change (updated _ f l.tries).countP Try.done = if target = .committed then 1 else 0
  by_cases htarget : target = .committed
  · simp only [htarget, decide_true, if_true, Bool.false_eq_true, if_false] at hcount ⊢
    omega
  · simp only [htarget, decide_false, Bool.false_eq_true, if_false] at hcount ⊢
    omega

/-- A committed item is left as it is by every event that may happen to it. -/
theorem not_next_committed {l m : Life ι ρ} (h : Coupled l) (hstate : l.state = .committed) :
    ¬ Next Lasting l m := by
  intro hn
  have hdead : l.live = false := by simp [Life.live, hstate, inProgress]
  cases hn with
  | claimed id hpending hnew => simp [hstate] at hpending
  | advanced t target ht hsame hlegal htarget =>
    rw [hstate] at hsame
    simp [← hsame, legal] at hlegal
  | committed t result ht hsame hvalidated =>
    rw [hstate, hvalidated] at hsame
    cases hsame
  | blocked hpending => simp [hstate] at hpending
  | ended t d g target ht hd hroute hok =>
    rcases hok with hlive | hpending | ⟨-, htarget⟩
    · rw [h.not_live hdead ht] at hlive
      cases hlive
    · simp [hstate] at hpending
    · exact (Life.Routes.not_live hroute).2 (htarget.trans hstate)

theorem Settled.next {l m : Life ι ρ} (h : Settled l) (hc : Coupled l) (hn : Next Lasting l m) :
    Settled m := by
  have hopen : l.state ≠ .committed := fun e => not_next_committed hc e hn
  have hzero : l.tries.countP Try.done = 0 := by
    rw [h, if_neg hopen]
  cases hn with
  | claimed id hpending hnew =>
    simp only [Settled, Life.claimed, List.countP_append, hzero]
    rfl
  | advanced t target ht hsame hlegal htarget => exact h.rewrite hc ht hopen rfl
  | committed t result ht hsame hvalidated => exact h.rewrite hc ht hopen rfl
  | blocked hpending =>
    simp only [Settled, Life.blocked, hzero]
    rfl
  | ended t d g target ht hd hroute hok =>
    refine h.rewrite hc ht hopen ?_
    exact (decide_eq_false (disposition_not_live hd).2).trans
      (decide_eq_false (Life.Routes.not_live hroute).2).symm

/-- A terminal state is never left. -/
theorem terminal_next {l m : Life ι ρ} (hc : Coupled l) (hterm : l.state ∈ terminalStates)
    (hn : Next Lasting l m) : m.state = l.state := by
  obtain ⟨hnl, hnp⟩ := terminal_not_live hterm
  cases hn with
  | claimed id hpending hnew => exact absurd hpending hnp
  | advanced t target ht hsame hlegal htarget =>
    rw [← hsame] at hlegal
    exact absurd (legal_live hlegal hnp) hnl
  | committed t result ht hsame hvalidated =>
    rw [hsame, hvalidated] at hnl
    simp [inProgress] at hnl
  | blocked hpending => exact absurd hpending hnp
  | ended t d g target ht hd hroute hok =>
    rcases hok with hlive | hpending | ⟨-, htarget⟩
    · rw [hc.not_live (decide_eq_false hnl) ht] at hlive
      cases hlive
    · exact absurd hpending hnp
    · exact htarget

/-! ## The retry bound -/

/-- No ending, however late, breaks the retry bound. -/
theorem Bounded.next {ok : Life ι ρ → Try ι ρ → WorkState → Prop} {l m : Life ι ρ} (h : Bounded l)
    (hn : Next ok l m) : Bounded m := by
  obtain ⟨hretries, htries⟩ := h
  cases hn with
  | claimed id hpending hnew =>
    refine ⟨hretries, ?_⟩
    simp only [hpending, if_true] at htries
    simp only [Life.claimed, List.length_append, List.length_singleton, reduceCtorEq, if_false]
    omega
  | advanced t target ht hsame hlegal htarget =>
    have hstate : l.state ≠ .pending := by
      intro hp
      rw [← hsame, hp] at hlegal
      simp only [legal, List.mem_cons, List.not_mem_nil, or_false] at hlegal htarget
      rcases hlegal with rfl | rfl <;> simp at htarget
    have htarget' : target ≠ .pending := by
      rintro rfl
      simp at htarget
    refine ⟨hretries, ?_⟩
    simp only [hstate, if_false] at htries
    simp only [Life.advanced, Life.tried, length_updated, htarget', if_false]
    omega
  | committed t result ht hsame hvalidated =>
    have hstate : l.state ≠ .pending := by
      rw [hsame, hvalidated]
      simp
    refine ⟨hretries, ?_⟩
    simp only [hstate, if_false] at htries
    simp only [Life.committed, Life.tried, length_updated, reduceCtorEq, if_false]
    omega
  | blocked hpending =>
    refine ⟨hretries, ?_⟩
    simp only [hpending, if_true] at htries
    simp only [Life.blocked, reduceCtorEq, if_false]
    omega
  | ended t d g target ht hd hroute hok =>
    have hlen : l.tries.length ≤ l.retryCount + 1 := by
      split at htries <;> omega
    rcases hroute with ⟨rfl, hleft⟩ | rfl | rfl
    · refine ⟨?_, ?_⟩
      · simp only [Life.ended, if_true]
        push_cast
        omega
      · simp only [Life.ended, Life.tried, length_updated, if_true]
        omega
    all_goals
      refine ⟨hretries, ?_⟩
      simp only [Life.ended, Life.tried, length_updated, reduceCtorEq, if_false]
      omega

/-- An item is committed only by the commit of one of its tries. -/
theorem done_of_next {ok : Life ι ρ → Try ι ρ → WorkState → Prop} {l m : Life ι ρ} (hn : Next ok l m)
    (hm : m.state = .committed) : ∃ t ∈ m.tries, t.done := by
  cases hn with
  | claimed id hpending hnew => simp [Life.claimed] at hm
  | advanced t target ht hsame hlegal htarget =>
    change target = .committed at hm
    simp [hm] at htarget
  | committed t result ht hsame hvalidated =>
    refine ⟨_, mem_updated.mpr ⟨t, ht, rfl⟩, ?_⟩
    simp [Try.done]
  | blocked hpending => simp [Life.blocked] at hm
  | ended t d g target ht hd hroute hok => exact absurd hm hroute.not_live.2

/-! ## Along several events -/

theorem Coupled.steps {l m : Life ι ρ} (h : Coupled l) (hn : ReflTransGen (Next Holds) l m) :
    Coupled m := by
  induction hn with
  | refl => exact h
  | tail _ hstep ih => exact ih.next hstep

theorem Bounded.steps {ok : Life ι ρ → Try ι ρ → WorkState → Prop} {l m : Life ι ρ} (h : Bounded l)
    (hn : ReflTransGen (Next ok) l m) : Bounded m := by
  induction hn with
  | refl => exact h
  | tail _ hstep ih => exact ih.next hstep

theorem done_of_steps {ok : Life ι ρ → Try ι ρ → WorkState → Prop} {l m : Life ι ρ}
    (h : l.state = .committed → ∃ t ∈ l.tries, t.done) (hn : ReflTransGen (Next ok) l m)
    (hm : m.state = .committed) : ∃ t ∈ m.tries, t.done := by
  cases hn with
  | refl => exact h hm
  | tail _ hstep => exact done_of_next hstep hm

/-- What a stretch of events leaves of a terminal item: its state and, once it is
    committed, everything. -/
def Kept (l m : Life ι ρ) : Prop :=
  (l.state ∈ terminalStates → m.state = l.state) ∧ (l.state = .committed → m = l)

theorem kept_steps {l m : Life ι ρ} (hc : Coupled l) (hs : Settled l)
    (hn : ReflTransGen (Next Lasting) l m) : Coupled m ∧ Settled m ∧ Kept l m := by
  induction hn with
  | refl => exact ⟨hc, hs, fun _ => rfl, fun _ => rfl⟩
  | tail _ hstep ih =>
    obtain ⟨hc', hs', hstate, hsame⟩ := ih
    refine ⟨hc'.next (hstep.mono fun _ _ _ => Lasting.holds), hs'.next hc' hstep, ?_, ?_⟩
    · intro hterm
      have hmid := hstate hterm
      rw [← hmid] at hterm
      exact (terminal_next hc' hterm hstep).trans hmid
    · intro hcom
      have hmid := hsame hcom
      subst hmid
      exact absurd hstep (not_next_committed hc' hcom)

end Shapeflow.WorkItemLife
