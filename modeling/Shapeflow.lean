import Shapeflow.Script
import Shapeflow.Table
import Shapeflow.Run
import Shapeflow.Database
import Shapeflow.WorkLedger
import Shapeflow.WorkLedgerSteps
import Shapeflow.WorkItemLife
import Shapeflow.WorkLedgerLives
import Shapeflow.WorkLedgerSafety
import Shapeflow.WorkLedgerAttempts
import Shapeflow.Coordinator
import Shapeflow.CoordinatorTurn
import Shapeflow.CoordinatorRun
import Shapeflow.HandleCodec
import Shapeflow.HandleCodecBijection
import Shapeflow.Hold
import Shapeflow.Budget
import Shapeflow.BudgetSteps
import Shapeflow.BudgetAccounting
import Shapeflow.BudgetCaps
import Shapeflow.Session
import Shapeflow.ExternalCalls
import Shapeflow.ExternalCallsSteps
import Shapeflow.ExternalCallsSafety
import Shapeflow.ExternalCallsMoney
import Shapeflow.Dict
import Shapeflow.UnionFind
import Shapeflow.Reconcile
import Shapeflow.ProviderServer
import Shapeflow.ProviderFence
import Shapeflow.PyValue
import Shapeflow.PyJson
import Shapeflow.ObjectStore
import Shapeflow.Redactor
import Shapeflow.ProviderHandlers
import Shapeflow.ProviderSettle
import Shapeflow.ProviderReplay
import Shapeflow.ToolBatch
import Shapeflow.ToolBatchUniform
import Shapeflow.Publication
import Shapeflow.Fallible
import Shapeflow.PublicationHistory
import Shapeflow.CampaignSchedule
import Shapeflow.CampaignRunner
import Shapeflow.CampaignCell
import Shapeflow.CampaignResume
import Shapeflow.CampaignRedo
import Shapeflow.CrashLogic
import Shapeflow.CoordinatorCrash
import Shapeflow.WorkLedgerTransitions
import Shapeflow.BrokerOffer
import Shapeflow.BrokerDriver
import Shapeflow.BrokerVersions
import Shapeflow.BrokerDispatch
import Shapeflow.BrokerTicks
import Shapeflow.BudgetTrace
import Shapeflow.InferenceCalls
import Shapeflow.PyDict
import Shapeflow.CampaignSharding
import Shapeflow.CampaignMerge
import Shapeflow.PageSelection
import Shapeflow.PublicationHandles
import Shapeflow.Redo
import Shapeflow.Migration
import Shapeflow.MigrationRedo
import Shapeflow.MigrationOnce
import Shapeflow.Utf8
import Shapeflow.CanonicalJson
import Shapeflow.PhaseMachine
import Shapeflow.PhaseStore
import Shapeflow.PhaseRefinement
import Shapeflow.WilliamsSquare
import Shapeflow.Pairing
import Shapeflow.WilliamsAssignment
import Shapeflow.WilliamsBalance
import Shapeflow.JsonDocument
import Shapeflow.Checkpoints
import Shapeflow.CheckpointRoundTrip
import Shapeflow.Continuation
import Shapeflow.StoreReads
import Shapeflow.Collect
import Shapeflow.Selection
import Shapeflow.BudgetPack
import Shapeflow.BudgetPackLimit
import Shapeflow.BudgetPackStructure
import Shapeflow.PromptPack
import Shapeflow.PromptPackBudget
import Shapeflow.Renderer
import Shapeflow.CandidateView
import Shapeflow.Preflight
import Shapeflow.PreflightTotal
import Shapeflow.RetrievalService
import Shapeflow.RetrievalClient
import Shapeflow.RetrievalAgreement
import Shapeflow.SelectorOutput
import Shapeflow.SelectorOutputRows
import Shapeflow.SelectorOutputResult
import Shapeflow.Chunkers
import Shapeflow.ChunkersCoverage
import Shapeflow.ChunkersCeiling
import Shapeflow.Tiling
import Shapeflow.SharedView
import Shapeflow.RendererRuns
import Shapeflow.Aggregators
import Shapeflow.CandidateViewBuild
import Shapeflow.SelectionPipeline
import Shapeflow.SelectionBounds
import Shapeflow.WorkUnion
import Shapeflow.BrokerReference
import Shapeflow.LaneAssignment
import Shapeflow.SafeWindows
import Shapeflow.MessageFreeze
import Shapeflow.ProviderBilling
import Shapeflow.PageLineage
import Shapeflow.ProseBounds
import Shapeflow.MerkleRoot
import Shapeflow.BlockDesign
import Shapeflow.BlockDesignBalance
import Shapeflow.FedorovSelect
import Shapeflow.Promotion
import Shapeflow.DenseSearch
import Shapeflow.PairedContrast
import Shapeflow.Qrels
import Shapeflow.TextLines
import Shapeflow.QrelsFile
import Shapeflow.Recall
import Shapeflow.RecallReports
import Shapeflow.EvaluatorQueries
import Shapeflow.JudgeClient
import Shapeflow.JudgeRetries
import Shapeflow.NoteSlots
import Shapeflow.FirstOccurrences
import Shapeflow.SourcePool
import Shapeflow.SourcePoolViews
import Shapeflow.PreflightFaithful
import Shapeflow.WorkLedgerFrame
import Shapeflow.CoordinatorCrashSafety
import Shapeflow.ScriptRules
import Shapeflow.SearchSeam
import Shapeflow.SearchSeamView
import Shapeflow.PageReplay
import Shapeflow.PageReplayFaithful
import Shapeflow.PageReplayRuns
import Shapeflow.Brackets
import Shapeflow.CellScopes
import Shapeflow.CellScopesRestored
