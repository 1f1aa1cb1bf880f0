import AgentlyStage.Lib.Transition
import AgentlyStage.Lib.Counting
import AgentlyStage.Errors
import AgentlyStage.Admission
import AgentlyStage.AdmissionBound
import AgentlyStage.Scope
import AgentlyStage.ScopeMembership
import AgentlyStage.ScopeClosing
import AgentlyStage.StageHandle
import AgentlyStage.HandleSteps
import AgentlyStage.CallbackDrains
import AgentlyStage.DoneCallbacks
import AgentlyStage.AdoptedTasks
import AgentlyStage.SettlementBarrier
import AgentlyStage.SettlementErrors
import AgentlyStage.OwnerWait
import AgentlyStage.HandleReaders
import AgentlyStage.ScopeEpoch
import AgentlyStage.IdleWatch
import AgentlyStage.EpochCoherence
import AgentlyStage.EpochAdmission
import AgentlyStage.CallerRunner
import AgentlyStage.CallerCleanup
import AgentlyStage.CarrierSlot
import AgentlyStage.CarrierLedger
import AgentlyStage.CarrierSealing
import AgentlyStage.CarrierLifecycle
import AgentlyStage.CarrierLineage
import AgentlyStage.CarrierCleanup
import AgentlyStage.BlockingBody
import AgentlyStage.SelfWait
import AgentlyStage.LoopBarriers
import AgentlyStage.CarrierPool
import AgentlyStage.LaneSelection
import AgentlyStage.SyncScopes
import AgentlyStage.ScopeLineage
import AgentlyStage.ScopeSteps
import AgentlyStage.BlockedLineage
import AgentlyStage.WaitCycle
import AgentlyStage.CallBridge
import AgentlyStage.CallNesting
import AgentlyStage.Tunnel
import AgentlyStage.TunnelDelivery
import AgentlyStage.StreamRoot
import AgentlyStage.StreamViews
import AgentlyStage.BridgeIteration
import AgentlyStage.PermitFairness
import AgentlyStage.EventEmitter
import AgentlyStage.EmitterLaws
import AgentlyStage.EmitterListeners
import AgentlyStage.EmitterClosing
import AgentlyStage.BridgeClosing
import AgentlyStage.BridgeCalls
import AgentlyStage.ManagedCall
import AgentlyStage.TunnelReaders
import AgentlyStage.TunnelWaiters
import AgentlyStage.IdleDeadline
import AgentlyStage.ScopeFence
import AgentlyStage.HandleFence
import AgentlyStage.CarrierLease
import AgentlyStage.TaskClassification
import AgentlyStage.Submission
import AgentlyStage.LateRegistration
import AgentlyStage.AllOrNothing
import AgentlyStage.FailedStart
import AgentlyStage.SubmissionRuns
import AgentlyStage.LazyStream
import AgentlyStage.Lib.Grouping
import AgentlyStage.Lib.Cyclic
import AgentlyStage.Lib.Chase
import AgentlyStage.Lib.Simulation
import AgentlyStage.CarrierRuntime
import AgentlyStage.LaneOwnership
import AgentlyStage.RuntimeLaws
import AgentlyStage.Lib.Measure
import AgentlyStage.CloseOperation
import AgentlyStage.CloseLaws
import AgentlyStage.LeavingScope
import AgentlyStage.CloseReports
import AgentlyStage.LocalTaskScope
import AgentlyStage.LocalScopeLaws
import AgentlyStage.LocalScopeClosing
import AgentlyStage.LocalScopeProgress
import AgentlyStage.CarrierRundown
import AgentlyStage.StreamClosing
import AgentlyStage.StreamCloseProgress
