import Shapeflow.CellScopes

set_option autoImplicit false

/-!
# Cells of one process are kept apart

Whatever a graph does with what a cell binds, the process has its own bindings back
afterwards; and a graph is only ever started on a process that has the bindings of
its own cell.
-/
namespace Shapeflow.CellRun
open Script

section
variable {ω β γ α : Type}

/-! ## The environment -/

theorem get?_pop (d : Dict String String) (k j : String) :
    (pop d k).get? j = if j = k then none else d.get? j := by
  unfold pop Dict.get?
  simp only [List.find?_filter]
  split
  · rename_i hj
    subst hj
    rw [List.find?_eq_none.mpr (by simp)]
    rfl
  · rename_i hj
    congr 2
    funext e
    by_cases he : e.1 = j
    · simp [he, hj]
    · simp [he]

theorem get?_putBack (d : Dict String String) (read : String × Option String) (k : String) :
    (putBack d read).get? k = if k = read.1 then read.2 else d.get? k := by
  unfold putBack
  split
  · rename_i hnone
    rw [get?_pop, hnone]
  · rename_i value hsome
    rw [Dict.get?_set, hsome]

/-- What was read of a variable is what is there again. -/
theorem get?_restored (keys : List String) (d e : Dict String String) (k : String) :
    ((keys.map fun key => (key, d.get? key)).foldl putBack e).get? k =
      if k ∈ keys then d.get? k else e.get? k := by
  induction keys generalizing e with
  | nil => rfl
  | cons key keys ih =>
    rw [List.map_cons, List.foldl_cons, ih, get?_putBack]
    by_cases hkeys : k ∈ keys
    · simp [hkeys]
    · by_cases hkey : k = key
      · simp [hkey]
      · simp [hkeys, hkey]

def variableOf (k : String) (s : Process ω β γ) : Option String := s.environ.get? k

theorem restores_environment {overrides : Dict String String} {k : String} (hk : k ∈ overrides.keys) :
    Restores (variableOf k) (environment overrides : Manager (Process ω β γ) CellRaised _) := by
  refine restores_total fun s u => ?_
  change ((overrides.keys.map fun key => (key, s.environ.get? key)).foldl putBack u.environ).get? k = s.environ.get? k
  rw [get?_restored, if_pos hk]

theorem spares_environment_variable {overrides : Dict String String} {k : String} (hk : k ∉ overrides.keys) :
    Spares (variableOf k) (environment overrides : Manager (Process ω β γ) CellRaised _) := by
  refine spares_total (fun s => ?_) fun s u => ?_
  · change (s.environ.updateAll overrides).get? k = s.environ.get? k
    rw [Dict.get?_updateAll, Dict.get?_eq_none_iff.mpr hk]
    rfl
  · change ((overrides.keys.map fun key => (key, s.environ.get? key)).foldl putBack u.environ).get? k =
      u.environ.get? k
    rw [get?_restored, if_neg hk]

theorem restores_summarizeTimeout (seconds : String) :
    Restores (variableOf summarizeTimeout) (summarizeTimeoutApplied seconds : Manager (Process ω β γ) CellRaised _) := by
  refine restores_total fun s u => ?_
  change (putBack u.environ (summarizeTimeout, s.environ.get? summarizeTimeout)).get? summarizeTimeout = _
  rw [get?_putBack, if_pos rfl]
  rfl

theorem spares_summarizeTimeout_variable {k : String} (hk : k ≠ summarizeTimeout) (seconds : String) :
    Spares (variableOf k) (summarizeTimeoutApplied seconds : Manager (Process ω β γ) CellRaised _) := by
  refine spares_total (fun s => ?_) fun s u => ?_
  · change (s.environ.set summarizeTimeout seconds).get? k = s.environ.get? k
    rw [Dict.get?_set, if_neg hk]
  · change (putBack u.environ (summarizeTimeout, s.environ.get? summarizeTimeout)).get? k = u.environ.get? k
    rw [get?_putBack, if_neg hk]

/-- What is not in the environment is not touched by the managers of the environment. -/
theorem spares_environs {ν : Type} (view : Process ω β γ → ν)
    (h : ∀ (s : Process ω β γ) environ, view { s with environ := environ } = view s) :
    (∀ overrides, Spares view (environment overrides : Manager (Process ω β γ) CellRaised _)) ∧
      ∀ seconds, Spares view (summarizeTimeoutApplied seconds : Manager (Process ω β γ) CellRaised _) :=
  ⟨fun _ => spares_total (fun s => h s _) fun _ u => h u _, fun _ => spares_total (fun s => h s _) fun _ u => h u _⟩

/-! ## The other managers -/

/-- The bindings of the seed, as they are found again. -/
def seedsOf (s : Process ω β γ) : ChatInit × ChatInit × Option ℤ × Option ℤ :=
  (s.models.initChatModel, s.models.initChatModelHelper, s.models.activeOdrSeed, s.models.seedPatchActive)

/-- What entering the seed's manager did: nothing, or it bound the seed where none was bound. -/
theorem odrSeedApplied_enter {seed : ℤ} {s t : Process ω β γ} {result : Except CellRaised Models}
    (h : (odrSeedApplied seed).enter s = (result, t)) :
    (∃ why, result = .error (.seed why) ∧ t = s) ∨
      s.models.configurable = true ∧ s.models.activeOdrSeed.filter (· ≠ seed) = none ∧
        s.models.seedPatchActive = none ∧ result = .ok s.models ∧
        t = { s with models :=
          { s.models with
            initChatModel := .seeded seed s.models.initChatModel
            initChatModelHelper := .seeded seed s.models.initChatModelHelper
            activeOdrSeed := some seed
            seedPatchActive := some seed } } := by
  simp only [odrSeedApplied] at h
  split at h
  · cases h
    exact .inl ⟨_, rfl, rfl⟩
  · rename_i hconfigurable
    split at h
    · cases h
      exact .inl ⟨_, rfl, rfl⟩
    · cases h
      exact .inl ⟨_, rfl, rfl⟩
    · rename_i hnested hpatch
      cases h
      exact .inr ⟨not_not.mp hconfigurable, hnested, hpatch, rfl, rfl⟩

theorem restores_odrSeedApplied (seed : ℤ) :
    Restores seedsOf (odrSeedApplied seed : Manager (Process ω β γ) CellRaised _) where
  refused henter := by
    rcases odrSeedApplied_enter henter with ⟨why, -, rfl⟩ | ⟨-, -, -, hok, -⟩
    · rfl
    · cases hok
  restored henter how u := by
    rcases odrSeedApplied_enter henter with ⟨why, hraised, -⟩ | ⟨-, -, hpatch, hok, -⟩
    · cases hraised
    · cases hok
      change (_, _, _, none) = seedsOf _
      rw [seedsOf, hpatch]
      rfl

theorem spares_odrSeedApplied {ν : Type} {view : Process ω β γ → ν}
    (h : ∀ (s : Process ω β γ) models, view { s with models := models } = view s) (seed : ℤ) :
    Spares view (odrSeedApplied seed : Manager (Process ω β γ) CellRaised _) where
  enter s := by
    unfold after
    cases hrun : (odrSeedApplied seed : Manager (Process ω β γ) CellRaised _).enter s with
    | mk result t =>
      rcases odrSeedApplied_enter hrun with ⟨why, -, rfl⟩ | ⟨-, -, -, -, rfl⟩
      · rfl
      · exact h _ _
  leave _ _ u := h u _

theorem restores_strategiesBound (bundle : β) :
    Restores Process.strategies (strategiesBound bundle : Manager (Process ω β γ) CellRaised _) :=
  restores_total fun _ _ => rfl

theorem spares_strategiesBound {ν : Type} {view : Process ω β γ → ν}
    (h : ∀ (s : Process ω β γ) strategies, view { s with strategies := strategies } = view s) (bundle : β) :
    Spares view (strategiesBound bundle : Manager (Process ω β γ) CellRaised _) :=
  spares_total (fun s => h s _) fun _ u => h u _

theorem restores_bindRun (binding : RunBinding) :
    Restores Process.context (bindRun binding : Manager (Process ω β γ) CellRaised _) :=
  restores_total fun _ _ => rfl

/-- The environment variables a cell binds. -/
def scopedVariables : List String :=
  ["OPENAI_BASE_URL", "OPENAI_API_KEY", "TAVILY_API_KEY", "PYTHONHASHSEED", "TZ", summarizeTimeout]

theorem keys_environ {setup : Setup ω β} :
    setup.environ.keys = ["OPENAI_BASE_URL", "OPENAI_API_KEY", "TAVILY_API_KEY", "PYTHONHASHSEED", "TZ"] := by
  unfold Setup.environ Dict.keys
  rw [Dict.entries_ofPairs_of_nodup (by simp)]
  rfl

/-- What a process binds for its cells. -/
structure SameBindings (s t : Process ω β γ) : Prop where
  environ : ∀ k ∈ scopedVariables, variableOf k t = variableOf k s
  seeds : seedsOf t = seedsOf s
  search : t.search = s.search
  strategies : t.strategies = s.strategies
  context : t.context = s.context

theorem SameBindings.refl (s : Process ω β γ) : SameBindings s s := ⟨fun _ _ => rfl, rfl, rfl, rfl, rfl⟩

theorem SameBindings.trans {s t u : Process ω β γ} (h : SameBindings s t) (h' : SameBindings t u) : SameBindings s u where
  environ k hk := (h'.environ k hk).trans (h.environ k hk)
  seeds := h'.seeds.trans h.seeds
  search := h'.search.trans h.search
  strategies := h'.strategies.trans h.strategies
  context := h'.context.trans h.context

variable [DecidableEq ω]

/-- What entering the world's manager did: nothing, or it installed a function of its own over a world that may be
    searched. -/
theorem installFrozenSearch_enter {choice : WorldChoice ω} {maxResults : ℤ} {s t : Process ω β γ}
    {result : Except CellRaised (SearchFn ω × SearchFn ω)}
    (h : (installFrozenSearch choice maxResults).enter s = (result, t)) :
    (∃ why, result = .error (.install why) ∧ t = s) ∨
      ∃ world, choice.chosen maxResults = .ok world ∧
        result = .ok (s.search, .frozen s.made world maxResults) ∧
        t = { s with search := .frozen s.made world maxResults, made := s.made + 1 } := by
  simp only [installFrozenSearch] at h
  split at h
  · cases h
    exact .inl ⟨_, rfl, rfl⟩
  · rename_i world hchosen
    cases h
    exact .inr ⟨world, hchosen, rfl, rfl⟩

theorem restores_installFrozenSearch (choice : WorldChoice ω) (maxResults : ℤ) :
    Restores Process.search (installFrozenSearch choice maxResults : Manager (Process ω β γ) CellRaised _) where
  refused henter := by
    rcases installFrozenSearch_enter henter with ⟨why, -, rfl⟩ | ⟨world, -, hok, -⟩
    · rfl
    · cases hok
  restored henter how u := by
    rcases installFrozenSearch_enter henter with ⟨why, hraised, -⟩ | ⟨world, -, hok, -⟩
    · cases hraised
    · cases hok
      rfl

theorem spares_installFrozenSearch {ν : Type} {view : Process ω β γ → ν}
    (h : ∀ (s : Process ω β γ) search made, view { s with search := search, made := made } = view s)
    (choice : WorldChoice ω) (maxResults : ℤ) :
    Spares view (installFrozenSearch choice maxResults : Manager (Process ω β γ) CellRaised _) where
  enter s := by
    unfold after
    cases hrun : (installFrozenSearch choice maxResults : Manager (Process ω β γ) CellRaised _).enter s with
    | mk result t =>
      rcases installFrozenSearch_enter hrun with ⟨why, -, rfl⟩ | ⟨world, -, -, rfl⟩
      · rfl
      · exact h _ _ _
  leave _ _ u := h u _ u.made

/-! ## A cell -/

theorem runCell_keeps {ν : Type} {view : Process ω β γ → ν} {setup : Setup ω β}
    {graph : Script (Process ω β γ) GraphRaised α}
    (h : Keeps view (within (environment setup.environ) fun _ =>
      within (summarizeTimeoutApplied setup.summarizationTimeout) fun _ =>
      within (odrSeedApplied setup.cell.seed) fun _ =>
      within (installFrozenSearch setup.choice setup.maxResults) fun _ =>
      within (strategiesBound setup.bundle) fun _ =>
      within (bindRun setup.binding) fun _ => drive graph)) : Keeps view (runCell setup graph) := by
  unfold runCell
  split
  · exact fun _ => rfl
  · split
    · exact fun _ => rfl
    · exact h

theorem runCell_restores (setup : Setup ω β) (graph : Script (Process ω β γ) GraphRaised α) (s : Process ω β γ) :
    SameBindings s ((runCell setup graph).after s) where
  environ k hk := by
    refine runCell_keeps ?_ s
    by_cases htimeout : k = summarizeTimeout
    · subst htimeout
      refine keeps_within_of_spares (spares_environment_variable (by rw [keys_environ]; decide)) fun _ => ?_
      exact keeps_within_of_restores (restores_summarizeTimeout _)
    · refine keeps_within_of_restores (restores_environment ?_)
      rw [keys_environ]
      simpa [scopedVariables, htimeout] using hk
  seeds := by
    obtain ⟨henviron, htimeout⟩ := spares_environs (seedsOf (ω := ω) (β := β) (γ := γ)) fun _ _ => rfl
    refine runCell_keeps ?_ s
    refine keeps_within_of_spares (henviron _) fun _ => keeps_within_of_spares (htimeout _) fun _ => ?_
    exact keeps_within_of_restores (restores_odrSeedApplied _)
  search := by
    obtain ⟨henviron, htimeout⟩ := spares_environs (Process.search (ω := ω) (β := β) (γ := γ)) fun _ _ => rfl
    refine runCell_keeps ?_ s
    refine keeps_within_of_spares (henviron _) fun _ => keeps_within_of_spares (htimeout _) fun _ => ?_
    refine keeps_within_of_spares (spares_odrSeedApplied (fun _ _ => rfl) _) fun _ => ?_
    exact keeps_within_of_restores (restores_installFrozenSearch _ _)
  strategies := by
    obtain ⟨henviron, htimeout⟩ := spares_environs (Process.strategies (ω := ω) (β := β) (γ := γ)) fun _ _ => rfl
    refine runCell_keeps ?_ s
    refine keeps_within_of_spares (henviron _) fun _ => keeps_within_of_spares (htimeout _) fun _ => ?_
    refine keeps_within_of_spares (spares_odrSeedApplied (fun _ _ => rfl) _) fun _ => ?_
    refine keeps_within_of_spares (spares_installFrozenSearch (fun _ _ _ => rfl) _ _) fun _ => ?_
    exact keeps_within_of_restores (restores_strategiesBound _)
  context := by
    obtain ⟨henviron, htimeout⟩ := spares_environs (Process.context (ω := ω) (β := β) (γ := γ)) fun _ _ => rfl
    refine runCell_keeps ?_ s
    refine keeps_within_of_spares (henviron _) fun _ => keeps_within_of_spares (htimeout _) fun _ => ?_
    refine keeps_within_of_spares (spares_odrSeedApplied (fun _ _ => rfl) _) fun _ => ?_
    refine keeps_within_of_spares (spares_installFrozenSearch (fun _ _ _ => rfl) _ _) fun _ => ?_
    refine keeps_within_of_spares (spares_strategiesBound (fun _ _ => rfl) _) fun _ => ?_
    exact keeps_within_of_restores (restores_bindRun _)

/-! ## What a graph is started on -/

/-- A constructor reaches vendor with this seed, or not at all. -/
def Delivers (seed : ℤ) (init : ChatInit) : Prop :=
  ∀ requested delivered, init.call requested = .ok delivered → delivered = some seed

theorem call_some : ∀ (init : ChatInit) (seed : ℤ) (delivered : Option ℤ), init.call (some seed) = .ok delivered →
    delivered = some seed
  | .vendor, seed, delivered, h => by
    cases h
    rfl
  | .seeded other original, seed, delivered, h => by
    rw [ChatInit.call] at h
    split at h
    · cases h
    · rename_i hsame
      rw [← not_not.mp hsame] at h
      exact call_some original seed delivered h

/-- Whatever is wrapped, and whatever is requested. -/
theorem delivers_seeded (seed : ℤ) (original : ChatInit) : Delivers seed (.seeded seed original) := by
  intro requested delivered h
  cases requested with
  | none => exact call_some original seed delivered h
  | some requested =>
    rw [ChatInit.call] at h
    split at h
    · cases h
    · exact call_some original seed delivered h

def InEnviron (setup : Setup ω β) (s : Process ω β γ) : Prop :=
  ∀ k ∈ setup.environ.keys, s.environ.get? k = setup.environ.get? k

def TimeoutBound (setup : Setup ω β) (s : Process ω β γ) : Prop :=
  s.environ.get? summarizeTimeout = some setup.summarizationTimeout

def SeedBound (setup : Setup ω β) (s : Process ω β γ) : Prop :=
  Delivers setup.cell.seed s.models.initChatModel ∧ Delivers setup.cell.seed s.models.initChatModelHelper ∧
    s.models.activeOdrSeed = some setup.cell.seed

def WorldBound (setup : Setup ω β) (s : Process ω β γ) : Prop :=
  ∃ serial world, setup.choice.chosen setup.maxResults = .ok world ∧ s.search = .frozen serial world setup.maxResults

/-- A process that has the bindings of a cell, and nothing of another. -/
structure Bound (setup : Setup ω β) (s : Process ω β γ) : Prop where
  environ : InEnviron setup s
  timeout : TimeoutBound setup s
  initChatModel : Delivers setup.cell.seed s.models.initChatModel
  initChatModelHelper : Delivers setup.cell.seed s.models.initChatModelHelper
  activeOdrSeed : s.models.activeOdrSeed = some setup.cell.seed
  search : WorldBound setup s
  strategies : s.strategies = some setup.bundle
  context : s.context = ⟨some setup.binding, none, some Dict.empty, some Dict.empty⟩

/-- Only what a graph does on processes that have its cell's bindings is seen. -/
theorem runCell_bound {setup : Setup ω β} {graph other : Script (Process ω β γ) GraphRaised α}
    (h : AgreeOn (Bound setup) graph other) : runCell setup graph = runCell setup other := by
  unfold runCell
  split
  · rfl
  · split
    · rfl
    · funext s
      -- each manager binds its part of `Bound` and leaves what is bound already
      refine agreeOn_within (P := fun _ => True) (Q := fun _ t => InEnviron setup t) ?_ (fun _ => ?_) s trivial
      · intro s r t _ henter
        cases henter
        intro k hk
        obtain ⟨v, hv⟩ := Dict.mem_keys_iff.mp hk
        change (s.environ.updateAll setup.environ).get? k = setup.environ.get? k
        rw [Dict.get?_updateAll, hv]
        rfl
      refine agreeOn_within (Q := fun _ t => InEnviron setup t ∧ TimeoutBound setup t) ?_ fun _ => ?_
      · rintro s r t henviron ⟨⟩
        refine ⟨fun k hk => ?_, Dict.get?_set_self ..⟩
        have hne : k ≠ summarizeTimeout := by
          rintro rfl
          rw [keys_environ] at hk
          exact absurd hk (by decide)
        change (s.environ.set summarizeTimeout setup.summarizationTimeout).get? k = _
        rw [Dict.get?_set_ne _ _ hne]
        exact henviron k hk
      refine agreeOn_within (Q := fun _ t => (InEnviron setup t ∧ TimeoutBound setup t) ∧ SeedBound setup t) ?_ fun _ => ?_
      · intro s r t hs henter
        rcases odrSeedApplied_enter henter with ⟨why, hraised, -⟩ | ⟨-, -, -, -, rfl⟩
        · cases hraised
        · exact ⟨hs, delivers_seeded _ _, delivers_seeded _ _, rfl⟩
      refine agreeOn_within (Q := fun _ t => ((InEnviron setup t ∧ TimeoutBound setup t) ∧ SeedBound setup t) ∧
        WorldBound setup t) ?_ fun _ => ?_
      · intro s r t hs henter
        rcases installFrozenSearch_enter henter with ⟨why, hraised, -⟩ | ⟨world, hchosen, -, rfl⟩
        · cases hraised
        · exact ⟨hs, s.made, world, hchosen, rfl⟩
      refine agreeOn_within (Q := fun _ t => (((InEnviron setup t ∧ TimeoutBound setup t) ∧ SeedBound setup t) ∧
        WorldBound setup t) ∧ t.strategies = some setup.bundle) ?_ fun _ => ?_
      · rintro s r t hs ⟨⟩
        exact ⟨hs, rfl⟩
      refine agreeOn_within (Q := fun _ t => Bound setup t) ?_ fun _ t ht => ?_
      · rintro s r t ⟨⟨⟨⟨henviron, htimeout⟩, hinit, hhelper, hactive⟩, hworld⟩, hstrategies⟩ ⟨⟩
        exact ⟨henviron, htimeout, hinit, hhelper, hactive, hworld, hstrategies, rfl⟩
      · unfold drive
        rw [h t ht]

/-! ## The cells of a process -/

/-- A cell that ends cleanly ran its graph on a process bound for it, and the world that was installed then is still
    installed when the graph ends. -/
theorem runCell_ok {setup : Setup ω β} {graph : Script (Process ω β γ) GraphRaised α} {s v : Process ω β γ}
    {result : CellResult α} (h : runCell setup graph s = (.ok result, v)) :
    ∃ t u, Bound setup t ∧ drive graph t = (.ok result, u) ∧ u.search = t.search := by
  classical
  -- a graph that is cancelled wherever the process is not bound for the cell would have ended alike
  let guarded : Script (Process ω β γ) GraphRaised α := fun t =>
    if Bound setup t then graph t else (.error .cancelled, t)
  have hsame : runCell setup graph = runCell setup guarded := runCell_bound fun t ht => (if_pos ht).symm
  rw [hsame] at h
  unfold runCell at h
  split at h
  · cases h
  · split at h
    · cases h
    · obtain ⟨_, _, _, -, h, -⟩ := within_ok h
      obtain ⟨_, _, _, -, h, -⟩ := within_ok h
      obtain ⟨_, _, _, -, h, -⟩ := within_ok h
      obtain ⟨r, t₀, w, hinstall, h, hleft⟩ := within_ok h
      obtain ⟨_, t₁, u₁, hstrategies, h, hstrategiesLeft⟩ := within_ok h
      obtain ⟨_, t, u, hrun, h, hrunLeft⟩ := within_ok h
      have hstart : t.search = t₀.search := by
        cases hrun
        cases hstrategies
        rfl
      have hend : w.search = u.search := by
        cases hrunLeft
        cases hstrategiesLeft
        rfl
      have hlive : w.search = t₀.search := by
        rcases installFrozenSearch_enter hinstall with ⟨why, hraised, -⟩ | ⟨world, -, hok, rfl⟩
        · cases hraised
        · cases hok
          simp only [installFrozenSearch] at hleft
          by_contra hne
          rw [if_pos ⟨trivial, hne⟩] at hleft
          cases hleft
      by_cases hbound : Bound setup t
      · refine ⟨t, u, hbound, ?_, hend.symm.trans (hlive.trans hstart.symm)⟩
        unfold drive at h ⊢
        rwa [show guarded t = graph t from if_pos hbound] at h
      · unfold drive at h
        rw [show guarded t = (.error .cancelled, t) from if_neg hbound] at h
        cases h

/-- However the graphs of the cells of a process behave, the process has its own bindings back when they are through,
    and no cell sees anything of a graph, its own or another's, but what it does on processes bound for its cell: its
    world, its strategies, its run, its credentials, and a seed that reaches every model or none. -/
theorem runCells_apart {cells others : List (Setup ω β × Script (Process ω β γ) GraphRaised α)}
    (h : List.Forall₂ (fun c o => c.1 = o.1 ∧ AgreeOn (Bound c.1) c.2 o.2) cells others) (s : Process ω β γ) :
    runCells cells s = runCells others s ∧ SameBindings s (runCells cells s).2 ∧
      List.Forall₂ (fun c ended => ∀ result, ended = .ok result →
        ∃ t u, Bound c.1 t ∧ drive c.2 t = (.ok result, u) ∧ u.search = t.search) cells (runCells cells s).1 := by
  induction h generalizing s with
  | nil => exact ⟨rfl, .refl s, .nil⟩
  | @cons c o cells others hco _ ih =>
    obtain ⟨setup, graph⟩ := c
    obtain ⟨setup', graph'⟩ := o
    obtain ⟨rfl, hagree⟩ := hco
    obtain ⟨hsame, hbindings, hended⟩ := ih ((runCell setup graph).after s)
    refine ⟨?_, (runCell_restores setup graph s).trans hbindings, .cons (fun result hresult => ?_) hended⟩
    · simp only [runCells, ← runCell_bound hagree]
      change (_ :: (runCells cells ((runCell setup graph).after s)).1,
        (runCells cells ((runCell setup graph).after s)).2) = _
      rw [hsame]
      rfl
    · exact runCell_ok (Prod.ext hresult rfl)

end

def sampleSetup (seed : ℤ) : Setup String String where
  cell := ⟨"t1", "H_IDQUERY_MMR", "P0", "r0", seed, "w1", "why", "token",
    String.ofList (List.replicate 64 'a'), String.ofList (List.replicate 64 'b'), false⟩
  choice := ⟨false, false, .error "no pool", some ⟨"world", true, true, false⟩⟩
  bundle := "arm"
  providerBaseUrl := "http://localhost:1/"
  runnerToken := "runner"
  summarizationTimeout := "300.0"
  maxResults := 5

/-- A graph that leaves everything it finds rebound. -/
def careless (s : Process String String Unit) : Except GraphRaised Unit × Process String String Unit :=
  (.error (.exception "left"), { s with
    environ := Dict.empty
    strategies := none
    models := { s.models with initChatModel := .vendor, seedPatchActive := some 9 } })

/-- One that differs from it where no strategies are bound. -/
def guardedCareless (s : Process String String Unit) : Except GraphRaised Unit × Process String String Unit :=
  if s.strategies = none then (.ok (), s) else careless s

def sampleProcess : Process String String Unit :=
  ⟨Dict.empty.set "TZ" "CET", ⟨true, .vendor, .vendor, none, none⟩, .vendor, 0, none, ⟨none, none, none, none⟩, ()⟩

theorem runCells_apart_careless :
    runCells [(sampleSetup 7, careless), (sampleSetup 8, careless)] sampleProcess =
        runCells [(sampleSetup 7, guardedCareless), (sampleSetup 8, guardedCareless)] sampleProcess ∧
      SameBindings sampleProcess
        (runCells [(sampleSetup 7, careless), (sampleSetup 8, careless)] sampleProcess).2 := by
  have hagree : ∀ seed, AgreeOn (Bound (sampleSetup seed)) careless guardedCareless := by
    intro seed s hs
    rw [guardedCareless, if_neg]
    rw [hs.strategies]
    exact Option.some_ne_none _
  have h := @runCells_apart String String Unit Unit _ [(sampleSetup 7, careless), (sampleSetup 8, careless)]
    [(sampleSetup 7, guardedCareless), (sampleSetup 8, guardedCareless)]
    (.cons ⟨rfl, hagree 7⟩ (.cons ⟨rfl, hagree 8⟩ .nil)) sampleProcess
  exact ⟨h.1, h.2.1⟩

end Shapeflow.CellRun
