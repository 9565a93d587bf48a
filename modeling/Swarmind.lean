import Swarmind.Orchestrator.DurableRun.Sharing
import Swarmind.Orchestrator.DurableRun.Recovery
import Swarmind.Orchestrator.DurableRun.Atomicity
import Swarmind.Orchestrator.Checkpoints
import Swarmind.Orchestrator.Wal.Recovery
import Swarmind.Orchestrator.Wal.Finality
import Swarmind.Orchestrator.TaskPlanner.Independence
import Swarmind.Kernel.Agreement
import Swarmind.Kernel.Isolation
import Swarmind.Orchestrator.Sessions.Recovery
import Swarmind.Orchestrator.TaskOrchestrator.Completion
import Swarmind.Orchestrator.MarsScheduler.Conservation
import Swarmind.Orchestrator.MarsScheduler.BoundedQueue
import Swarmind.Orchestrator.MarsScheduler.Dispatch
import Swarmind.MemoryRag.TokenBudget.Manager
import Swarmind.Orchestrator.EventBus.Limits
import Swarmind.MemoryRag.WriteBatcher.RowWise
import Swarmind.Orchestrator.FederatedMemory.Convergence
import Swarmind.Orchestrator.FederatedMemory.Deletion
import Swarmind.Orchestrator.FederatedMemory.ReadYourWrites
import Swarmind.Orchestrator.FederatedMemory.Isolation
import Swarmind.Orchestrator.FederatedMemory.MalformedPeers
import Swarmind.MemoryRag.WriteActor
import Swarmind.Orchestrator.TaskManager
import Swarmind.Orchestrator.TestDependencyMap.Soundness
import Swarmind.MemoryRag.RuscaDBStore.Transparency
import Swarmind.ModelRouter.MultiProvider
import Swarmind.ModelRouter.LocalExecutor.Calls
import Swarmind.Parallel.PipelineMacu.Progress
import Swarmind.MemoryRag.MemoryReconciliation
import Swarmind.MemoryRag.SemanticCache.LastWrite
import Swarmind.ComplexProblems.AttackSequence
import Swarmind.ReverseEngineering.Tampering
import Swarmind.ReverseEngineering.Grounding
import Swarmind.ReverseEngineering.Sessions
import Swarmind.Federation.FederationBus
import Swarmind.Orchestrator.AgentBus.Reading
import Swarmind.Orchestrator.SandboxLoop
import Swarmind.Scheduler.LanceScheduler
import Swarmind.Orchestrator.ResilienceGovernance
import Swarmind.Orchestrator.ScopeAnalyzer
import Swarmind.Orchestrator.RoutingMutation.QDArchive
import Swarmind.MemoryRag.TokenBudget.Settlement
import Swarmind.Orchestrator.GoTPlanner.Limit
import Swarmind.Orchestrator.ParallelExecutor.Vote
import Swarmind.Orchestrator.MinoritySentinel
import Swarmind.Orchestrator.BoundedExecutor
import Swarmind.Orchestrator.TDDPolicy
import Swarmind.MemoryRag.CueLedger
import Swarmind.MemoryRag.GraphAlgorithms.PageRank
import Swarmind.MemoryRag.GraphAlgorithms.Components
import Swarmind.MemoryRag.GraphAlgorithms.ShortestPath
import Swarmind.MemoryRag.RuscaDBStore.Traversal
import Swarmind.AlphaMining.MiningLoop.Tree
import Swarmind.AlphaMining.AlphaZoo.TopK
import Swarmind.MemoryRag.ShapleyFlow.Compute
import Swarmind.AlphaMining.RollingRank.Correlation
import Swarmind.AlphaMining.RollingRank.Rank
import Swarmind.ModelRouter.GpuGuard
import Swarmind.Orchestrator.MarsScheduler.QRange
import Swarmind.Orchestrator.SpeculativeToolExec
import Swarmind.Orchestrator.IdempotencyGuard
import Swarmind.Orchestrator.SpeculativeDecoder
