import FloWeaver.Align.FinalState
import FloWeaver.Counterexample.Artifacts
import FloWeaver.Counterexample.Balanced
import FloWeaver.Counterexample.PathRuns
import FloWeaver.Counterexample.Support
import FloWeaver.Counterexample.Useg
import FloWeaver.Counterexample.UsegFacts
import FloWeaver.Counterexample.Verdicts
import FloWeaver.Dag.CycleVictims
import FloWeaver.Dag.KeepsOrder
import FloWeaver.Dag.OrderFree
import FloWeaver.Dag.PairScope
import FloWeaver.Guard.Agreement
import FloWeaver.Markers.Grounding
import FloWeaver.Markers.Subscriptions
import FloWeaver.Micro.ApiCorridors
import FloWeaver.Micro.BleTimeline
import FloWeaver.Micro.OverlapSweep
import FloWeaver.Micro.PhaseShares
import FloWeaver.Micro.RunTime
import FloWeaver.Micro.Selection
import FloWeaver.Mssu.BoundMssus
import FloWeaver.Mssu.InternalEdges
import FloWeaver.Mssu.RenamedBuild
import FloWeaver.Mssu.SeedNodes
import FloWeaver.Naive.Soundness
import FloWeaver.Pipeline.HardOrder
import FloWeaver.Pipeline.PlannedRun
import FloWeaver.Profile.Clustering
import FloWeaver.Profile.Detectors
import FloWeaver.Profile.GateMonotone
import FloWeaver.Reduction.ExceptionDeps
import FloWeaver.Reduction.Reduce
import FloWeaver.Runner.RunCeiling
import FloWeaver.Scheduler.CloudRequests
import FloWeaver.Scheduler.CriticalPath
import FloWeaver.Scheduler.ExactlyOnce
import FloWeaver.Scheduler.HardGraphFacts
import FloWeaver.Scheduler.HardOrder
import FloWeaver.Scheduler.PairCycles
import FloWeaver.Scheduler.PhaseBarrier
import FloWeaver.Scheduler.PolicyOrder
import FloWeaver.Scheduler.SoftLayers
import FloWeaver.Scheduler.SoftRules
import FloWeaver.Scheduler.TransitiveReduction
import FloWeaver.Scheduler.TrustCoverage
import FloWeaver.Scoping.Target
import FloWeaver.Trace.Distinguish
import FloWeaver.Trace.FinalState
import FloWeaver.Trust.Certificate
import FloWeaver.Trust.HardeningFacts
import FloWeaver.Trust.Level1Tightens
import FloWeaver.Trust.Level2Relaxes
import FloWeaver.Trust.PatchDirection
import FloWeaver.Trust.Persistence
import FloWeaver.Trust.RunnerAgreement
