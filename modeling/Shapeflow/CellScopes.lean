import Shapeflow.Brackets
import Shapeflow.Dict
import Shapeflow.PyJson

set_option autoImplicit false

/-!
# The scopes of a cell

A cell runs the graph inside six managers, each of which binds something of the
process for that cell only: the environment, the summarizer's timeout, the seed,
the searched world, the arm's strategies and the run. Cells follow each other in
one process.
-/
namespace Shapeflow.CellRun
open Script

/-! ## The process -/

/-- A constructor of chat models: the one vendor imported, or one that puts a seed into the request first. -/
inductive ChatInit
  | vendor
  | seeded (seed : ℤ) (original : ChatInit)
deriving DecidableEq, Repr

inductive SeedDelivery
  | notConfigurable
  | nested (active seed : ℤ)
  | concurrent (processActive seed : ℤ)
  | requested (requested seed : ℤ)
deriving DecidableEq, Repr

/-- The seed a request for a model reaches vendor with. -/
def ChatInit.call : ChatInit → Option ℤ → Except SeedDelivery (Option ℤ)
  | .vendor, requested => .ok requested
  | .seeded seed original, none => original.call (some seed)
  | .seeded seed original, some requested =>
    if requested ≠ seed then .error (.requested requested seed) else original.call (some seed)

/-- `vendor_utils.tavily_search_async`; no two functions made for cells are the same object. -/
inductive SearchFn (ω : Type)
  | vendor
  | frozen (serial : ℕ) (world : ω) (topK : ℤ)
deriving DecidableEq

/-- What the seed is bound in. -/
structure Models where
  /-- `configurable_model._configurable_fields` is a list. -/
  configurable : Bool
  initChatModel : ChatInit
  initChatModelHelper : ChatInit
  activeOdrSeed : Option ℤ
  seedPatchActive : Option ℤ
deriving DecidableEq, Repr

structure RunBinding where
  taskId : String
  researcherId : String
  attemptId : String
  protocolSha : String
  variantId : String
  seed : ℤ
  researchTopic : String
  componentTrial : Bool
deriving DecidableEq, Repr

/-- The context variables of `bind_run`. -/
structure RunContext where
  run : Option RunBinding
  pendingPublication : Option Py.Json
  publishedToolProvenance : Option (Dict String Py.Json)
  childCoordinates : Option (Dict (String × ℤ × ℤ) String)

/-- What cells share: worlds, strategies, and a rest that no scope touches. -/
structure Process (ω β γ : Type) where
  environ : Dict String String
  models : Models
  search : SearchFn ω
  /-- How many search functions were made. -/
  made : ℕ
  strategies : Option β
  context : RunContext
  rest : γ

inductive InstallError
  | notPositive (maxResults : ℤ)
  | bothWorlds
  | notSearchable
  | unknownModule
  | evaluatorOnly
  | noWorld
  | notBuilt (why : String)
deriving DecidableEq, Repr

inductive CellRaised
  | badDigest (label : String)
  | seed (why : SeedDelivery)
  | install (why : InstallError)
  | searchRebound
  | cancelled
deriving DecidableEq, Repr

section
variable {ω β γ α : Type}

/-! ## The managers -/

/-- `os.environ.pop(key, None)` -/
def pop (d : Dict String String) (key : String) : Dict String String :=
  ⟨d.entries.filter fun e => e.1 ≠ key, (List.Sublist.map _ List.filter_sublist).nodup d.distinct⟩

/-- A variable as it was read, or gone where it was not there. -/
def putBack (d : Dict String String) (read : String × Option String) : Dict String String :=
  match read.2 with
  | none => pop d read.1
  | some value => d.set read.1 value

def environment (overrides : Dict String String) :
    Manager (Process ω β γ) CellRaised (List (String × Option String)) :=
  .total (fun s => (overrides.keys.map fun key => (key, s.environ.get? key),
      { s with environ := s.environ.updateAll overrides }))
    fun previous s => { s with environ := previous.foldl putBack s.environ }

def summarizeTimeout : String := "SHAPEFLOW_SUMMARIZE_TIMEOUT_S"

def summarizeTimeoutApplied (seconds : String) : Manager (Process ω β γ) CellRaised (Option String) :=
  .total (fun s => (s.environ.get? summarizeTimeout, { s with environ := s.environ.set summarizeTimeout seconds }))
    fun previous s => { s with environ := putBack s.environ (summarizeTimeout, previous) }

/-- Nothing is bound before all the checks passed. -/
def odrSeedApplied (seed : ℤ) : Manager (Process ω β γ) CellRaised Models where
  enter s :=
    if ¬ s.models.configurable then (.error (.seed .notConfigurable), s)
    else
      match s.models.activeOdrSeed.filter (· ≠ seed), s.models.seedPatchActive with
      | some active, _ => (.error (.seed (.nested active seed)), s)
      | none, some processActive => (.error (.seed (.concurrent processActive seed)), s)
      | none, none =>
        (.ok s.models, { s with models :=
          { s.models with
            initChatModel := .seeded seed s.models.initChatModel
            initChatModelHelper := .seeded seed s.models.initChatModelHelper
            activeOdrSeed := some seed
            seedPatchActive := some seed } })
  leave previous _ s :=
    (.ok (), { s with models :=
      { s.models with
        initChatModel := previous.initChatModel
        initChatModelHelper := previous.initChatModelHelper
        activeOdrSeed := previous.activeOdrSeed
        seedPatchActive := none } })

/-- A ready-made backend and the module that defines its class. -/
structure Backend (ω : Type) where
  world : ω
  searchable : Bool
  moduleKnown : Bool
  evaluatorOnly : Bool

/-- The worlds a cell was given: a pool with its snapshots, and what is built of them, or a backend. -/
structure WorldChoice (ω : Type) where
  pool : Bool
  snapshots : Bool
  built : Except String ω
  backend : Option (Backend ω)

/-- The checks of `install_frozen_search`. -/
def WorldChoice.chosen (choice : WorldChoice ω) (maxResults : ℤ) : Except InstallError ω :=
  if maxResults < 1 then .error (.notPositive maxResults)
  else
    match choice.backend with
    | some backend =>
      if choice.pool ∨ choice.snapshots then .error .bothWorlds
      else if ¬ backend.searchable then .error .notSearchable
      else if ¬ backend.moduleKnown then .error .unknownModule
      else if backend.evaluatorOnly then .error .evaluatorOnly
      else .ok backend.world
    | none => if choice.pool ∧ choice.snapshots then choice.built.mapError .notBuilt else .error .noWorld

/-- Leaving is not clean when the function found is not the one installed. -/
def installFrozenSearch [DecidableEq ω] (choice : WorldChoice ω) (maxResults : ℤ) :
    Manager (Process ω β γ) CellRaised (SearchFn ω × SearchFn ω) where
  enter s :=
    match choice.chosen maxResults with
    | .error why => (.error (.install why), s)
    | .ok world =>
      let installed := SearchFn.frozen s.made world maxResults
      (.ok (s.search, installed), { s with search := installed, made := s.made + 1 })
  leave r how s :=
    (if how = none ∧ s.search ≠ r.2 then .error .searchRebound else .ok (), { s with search := r.1 })

def strategiesBound (bundle : β) : Manager (Process ω β γ) CellRaised (Option β) :=
  .total (fun s => (s.strategies, { s with strategies := some bundle })) fun previous s => { s with strategies := previous }

def bindRun (binding : RunBinding) : Manager (Process ω β γ) CellRaised RunContext :=
  .total (fun s => (s.context, { s with context := ⟨some binding, none, some Dict.empty, some Dict.empty⟩ }))
    fun previous s => { s with context := previous }

/-! ## A cell -/

structure CellSpec where
  taskId : String
  pageVariant : String
  closeVariant : String
  replicateId : String
  seed : ℤ
  workKey : String
  question : String
  cellToken : String
  executionBindingSha256 : String
  protocolDocumentSha256 : String
  componentTrial : Bool

def CellSpec.variantId (cell : CellSpec) : String :=
  if cell.pageVariant = "P0" ∧ cell.closeVariant = "P0" then "P0"
  else if cell.closeVariant = "P0" then cell.pageVariant
  else if cell.pageVariant = "P0" then cell.closeVariant
  else cell.pageVariant ++ "+" ++ cell.closeVariant

/-- What a cell is run with besides its spec. -/
structure Setup (ω β : Type) where
  cell : CellSpec
  choice : WorldChoice ω
  bundle : β
  providerBaseUrl : String
  runnerToken : String
  summarizationTimeout : String
  maxResults : ℤ

def isSha256 (value : String) : Bool :=
  value.toList.length = 64 ∧ value.toList.all fun c => c ∈ "0123456789abcdef".toList

/-- `s.rstrip("/")` -/
def rstripSlash (s : String) : String := String.ofList (s.toList.reverse.dropWhile (· = '/')).reverse

def Setup.environ (setup : Setup ω β) : Dict String String :=
  Dict.ofPairs
    [("OPENAI_BASE_URL", rstripSlash setup.providerBaseUrl ++ "/v1/cell/" ++ setup.cell.cellToken),
      ("OPENAI_API_KEY", setup.runnerToken), ("TAVILY_API_KEY", "@SHAPEFLOW_FROZEN_CORPUS@"),
      ("PYTHONHASHSEED", "0"), ("TZ", "UTC")]

def Setup.binding (setup : Setup ω β) : RunBinding where
  taskId := setup.cell.taskId
  researcherId := setup.cell.taskId ++ ":" ++ setup.cell.replicateId
  attemptId := setup.cell.workKey
  protocolSha := setup.cell.executionBindingSha256
  variantId := setup.cell.variantId
  seed := setup.cell.seed
  researchTopic := setup.cell.question
  componentTrial := setup.cell.componentTrial

/-- How the graph ends when it does not return: an `Exception`, which is recorded, or a cancellation, which is not. -/
inductive GraphRaised
  | exception (error : String)
  | cancelled
deriving DecidableEq, Repr

structure CellResult (α : Type) where
  state : Option α
  error : Option String
  seedApplied : Bool

/-- The body of the scopes. -/
def drive (graph : Script (Process ω β γ) GraphRaised α) : Script (Process ω β γ) CellRaised (CellResult α) := fun s =>
  match graph s with
  | (.ok state, t) => (.ok ⟨some state, none, true⟩, t)
  | (.error (.exception error), t) => (.ok ⟨none, some error, true⟩, t)
  | (.error .cancelled, t) => (.error .cancelled, t)

variable [DecidableEq ω]

/-- `run_cell`, up to what it makes of a state it has been let out with. -/
def runCell (setup : Setup ω β) (graph : Script (Process ω β γ) GraphRaised α) :
    Script (Process ω β γ) CellRaised (CellResult α) :=
  if ¬ isSha256 setup.cell.executionBindingSha256 then raise (.badDigest "execution_binding_sha256")
  else if ¬ isSha256 setup.cell.protocolDocumentSha256 then raise (.badDigest "protocol_document_sha256")
  else
    within (environment setup.environ) fun _ =>
    within (summarizeTimeoutApplied setup.summarizationTimeout) fun _ =>
    within (odrSeedApplied setup.cell.seed) fun _ =>
    within (installFrozenSearch setup.choice setup.maxResults) fun _ =>
    within (strategiesBound setup.bundle) fun _ =>
    within (bindRun setup.binding) fun _ => drive graph

/-- The cells of a process, one after the other; what one raised does not keep the next from running. -/
def runCells : List (Setup ω β × Script (Process ω β γ) GraphRaised α) → Process ω β γ →
    List (Except CellRaised (CellResult α)) × Process ω β γ
  | [], s => ([], s)
  | (setup, graph) :: cells, s =>
    let ended := runCell setup graph s
    let others := runCells cells ended.2
    (ended.1 :: others.1, others.2)

end

end Shapeflow.CellRun
