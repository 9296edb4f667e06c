import Metasolver.Cluster.Step
import Metasolver.Controller.WorkConservation
import Metasolver.Lib.Exec
import Metasolver.Lib.RequestReply
import Metasolver.Cluster.Burden
import Metasolver.Cluster.Delivery
import Metasolver.Cluster.Invariant
import Metasolver.Cluster.Attribution
import Metasolver.Solver.MergePopulations
import Metasolver.Solver.Completion
import Metasolver.Lib.Except
import Metasolver.Solver.WorkPlan
import Metasolver.Solver.PlanRun
import Metasolver.Controller.Refinement
import Metasolver.Discovery.LruCache
import Metasolver.Discovery.Changes
import Metasolver.Discovery.Process
import Metasolver.Discovery.Version
import Metasolver.Discovery.Coherence
import Metasolver.Discovery.Settled
import Metasolver.Discovery.Refresh
import Metasolver.Discovery.Lifetime
import Metasolver.Discovery.Instances
import Metasolver.Lib.RunningMax
import Metasolver.Solver.Assignment
import Metasolver.Lib.Apportionment
import Metasolver.Solver.PlanSizes
import Metasolver.Controller.RepositoryCalls
import Metasolver.Solver.PlanSafety
import Metasolver.Lib.Dealing
import Metasolver.Worker.SplitPopulation
import Metasolver.Lib.Picking
import Metasolver.Solver.Selection
import Metasolver.Worker.IslandMinimum
import Metasolver.Discovery.LruRuns
import Metasolver.Controller.Statistics
import Metasolver.Controller.WorkTime
import Metasolver.Controller.Faults
import Metasolver.Lib.Tickets
import Metasolver.Controller.Timesheet
import Metasolver.Lib.Framing
import Metasolver.Sockets.Alignment
import Metasolver.Cluster.Downloads
import Metasolver.Lib.SingleFlight
import Metasolver.Cluster.OwnAnswer
import Metasolver.Discovery.Copies
import Metasolver.Discovery.Ownership
import Metasolver.Lib.PosixPath
import Metasolver.Benchmark.PathNormalizer
import Metasolver.Lib.Csv
import Metasolver.Lib.Markup
import Metasolver.Benchmark.CsvConversion
import Metasolver.Benchmark.HtmlTable
import Metasolver.Benchmark.HtmlDocument
import Metasolver.Benchmark.HtmlCells
import Metasolver.Benchmark.BenchmarkStats
import Metasolver.Benchmark.StatsTable
import Metasolver.Discovery.Sha256Stream
import Metasolver.Settings.WorkerStatistics
import Metasolver.Settings.WorkerIdentity
import Metasolver.Cluster.Progress
import Metasolver.Cluster.Potential
import Metasolver.Controller.WaitUntil
import Metasolver.Worker.WorkerThread
import Metasolver.Lib.Epochs
import Metasolver.Lib.Options
import Metasolver.Logging.LoggerControl
import Metasolver.RunExample.MainArgs
import Metasolver.RunExample.Main
import Metasolver.Solver.Evolution
