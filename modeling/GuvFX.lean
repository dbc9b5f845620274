import GuvFX.Analytics.FxSource
import GuvFX.Backtests.EngineRuns
import GuvFX.BetaAgent.AgentRuns
import GuvFX.BetaAgent.AuditChain
import GuvFX.BetaAgent.LockRuns
import GuvFX.BetaAgent.PoolOpsRuns
import GuvFX.BetaAgent.SlotQuarantine
import GuvFX.Billing.PaymentOrdering
import GuvFX.BrokerIntelligence.Attribution
import GuvFX.BrokerIntelligence.ErasureRuns
import GuvFX.Execution.JobQueueRuns
import GuvFX.Execution.LegCounts
import GuvFX.Execution.MonitoringGenerations
import GuvFX.Execution.MonitoringQuarantine
import GuvFX.Execution.NotificationRuns
import GuvFX.Execution.PlanReclaim
import GuvFX.Execution.ProtectionLadder
import GuvFX.Execution.ProviderCommandRuns
import GuvFX.Execution.RouterRuns
import GuvFX.Execution.RuntimePauseRuns
import GuvFX.HostedAccounts.ActiveLimit
import GuvFX.HostedAccounts.Finality
import GuvFX.HostedAccounts.OneEnvironment
import GuvFX.HostedWorkspace.HostAuthenticity
import GuvFX.HostedWorkspace.Readiness
import GuvFX.MarketData.Admissibility
import GuvFX.MarketData.BarSequence
import GuvFX.MarketData.Chunking
import GuvFX.MarketData.Instants
import GuvFX.SignalIntake.ApprovalDecisions
import GuvFX.SignalIntake.CatchUp
import GuvFX.SignalIntake.Edits
import GuvFX.SignalIntake.LedgerAgreement
import GuvFX.TerminalProvisioning.JobDriver
import GuvFX.TerminalProvisioning.RuntimeCapacity
import GuvFX.TerminalProvisioning.StoppedRuntimes
import GuvFX.TradeCopier.AlertDelivery
import GuvFX.TradeCopier.ConsumerAgreement
import GuvFX.TradeCopier.Convergence
import GuvFX.TradeCopier.CopiedModify
import GuvFX.TradeCopier.LateRevisions
import GuvFX.TradeCopier.LedgerWriters
import GuvFX.TradeCopier.LifecycleRuns
import GuvFX.TradeCopier.LiveCoverage
import GuvFX.TradeCopier.ModifyOrder
import GuvFX.TradeCopier.Nonces
import GuvFX.TradeCopier.ProducerPasses
import GuvFX.TradeCopier.ProjectionBatches
import GuvFX.TradeCopier.ProjectionWatermark
import GuvFX.TradeCopier.Reconstruction
import GuvFX.TradeCopier.ReplicationProgress
import GuvFX.TradeCopier.SingleFlight
import GuvFX.TradeCopier.StopWeakening
import GuvFX.TradeIngest.RowRefreshes
