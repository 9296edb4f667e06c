import Metasolver.Lib.Csv
import Metasolver.Solver.Selection

/-!
# Benchmark statistics

`benchmark_stats` (`benchmark_stats.h`, `benchmark_stats.cpp`): the data points that have
been collected, and the CSV text that is made of them.  `D` is `double`, with the
arithmetic that the statistics need; how numbers are written and what pagmo computes are
parameters.  An exception of pagmo passes through, and no text is made then.

An index outside of a vector is undefined, so what indexes returns an `Option`.
-/

namespace Metasolver

open Csv Picking

/-- What the statistics ask of `pagmo::problem`. -/
structure BenchmarkProblem (D : Type) extends Problem where
  name : Text
  nf : Nat
  fitness : VectorDouble D → VectorDouble D
  length_fitness : ∀ x, (fitness x).length = nf

/-- The vectors that are there for several objectives only. -/
structure Metrics (D : Type) where
  ranks : List Nat := []
  domCounts : List Nat := []
  crowdDists : List D := []
  hvContributions : List D := []

/-- How numbers are written, and the functions of pagmo. -/
structure StatsFunctions (D : Type) where
  toString : D → Text
  formatDouble : D → Text
  sizeToString : Nat → Text
  isinf : D → Bool
  /-- `fast_non_dominated_sorting`, `crowding_distance` and
      `hypervolume::contributions`, of two fitnesses or more. -/
  metrics : List (VectorDouble D) → Metrics D
  clean_toString : ∀ x, Clean (toString x)
  clean_formatDouble : ∀ x, Clean (formatDouble x)
  clean_sizeToString : ∀ n, Clean (sizeToString n)
  length_ranks : ∀ fs, 2 ≤ fs.length → (metrics fs).ranks.length = fs.length
  length_domCounts : ∀ fs, 2 ≤ fs.length → (metrics fs).domCounts.length = fs.length
  length_crowdDists : ∀ fs, 2 ≤ fs.length → (metrics fs).crowdDists.length = fs.length
  length_hvContributions : ∀ fs, 2 ≤ fs.length → (metrics fs).hvContributions.length = fs.length

/-- The data members of `benchmark_stats`.  There are an ID and a time for each point. -/
structure BenchmarkStats (D : Type) where
  problem : BenchmarkProblem D
  dataPoints : List (VectorDouble D) := []
  pointIDs : List Text := []
  elapsedTimes : List D := []
  csvStatsBuffer : List (Text × Text) := []
  sized_ids : pointIDs.length = dataPoints.length := by rfl
  sized_times : elapsedTimes.length = dataPoints.length := by rfl

/-- The vectors in the order from best to worst. -/
structure SortedPoints (D : Type) where
  points : List (VectorDouble D)
  fitnesses : List (VectorDouble D)
  pointIDs : List Text
  elapsedTimes : List D
  metrics : Metrics D

variable {D : Type} [OfNat D 0] [OfNat D 100] [BEq D] [Sub D] [Div D] [Mul D] [LT D]
  [DecidableLT D]

/-- `double_vector_to_csv` (`population_tools.h:189-203`). -/
def doubleVectorToCsv (functions : StatsFunctions D) (vec : VectorDouble D) : Text :=
  '"' :: [';'].intercalate (vec.map functions.toString) ++ ['"']

def percentageDecline (fitness best : D) : D :=
  if best != 0 then (fitness - best) / best else 0

/-- What the loop does for an entry of the best fitness (`benchmark_stats.cpp:97-104`). -/
def percentage (functions : StatsFunctions D) (fitness : VectorDouble D) (best : D × Nat) :
    Option Text := do
  let value ← fitness[best.2]?
  return functions.formatDouble (percentageDecline value best.1 * 100) ++ ['%']

/-- The loop over the best fitness (`benchmark_stats.cpp:93-110`). -/
def percentages (functions : StatsFunctions D) (bestIndividualFitness fitness : VectorDouble D) :
    Option Text := do
  let values ← bestIndividualFitness.zipIdx.mapM (percentage functions fitness)
  return '"' :: [';'].intercalate values ++ ['"']

namespace BenchmarkStats

def isMultiObjective (stats : BenchmarkStats D) : Bool := stats.problem.nobj > 1

/-- The header (`benchmark_stats.cpp:73-79`). -/
def csvHeader (isMultiObjective : Bool) : Text :=
  "ID,Value,Fitness,Fitness increase over baseline,ElapsedTime".toList ++
    (if isMultiObjective then ",Rank,DomBy,CrowdDist,HVContribution".toList else []) ++ ['\n']

/-- The columns for several objectives (`benchmark_stats.cpp:118-121`). -/
def metricsColumns (functions : StatsFunctions D) (metrics : Metrics D) (i : Nat) :
    Option Text := do
  let rank ← metrics.ranks[i]?
  let domCount ← metrics.domCounts[i]?
  let crowdDist ← metrics.crowdDists[i]?
  let hvContribution ← metrics.hvContributions[i]?
  return ',' :: functions.sizeToString rank ++
    ',' :: functions.sizeToString domCount ++
    ',' :: (if functions.isinf crowdDist then "Inf".toList else functions.formatDouble crowdDist) ++
    ',' :: functions.formatDouble hvContribution

/-- These columns, if there are metrics (`benchmark_stats.cpp:116-122`). -/
def multiColumns (functions : StatsFunctions D) (isMultiObjective : Bool) (metrics : Metrics D)
    (i : Nat) : Option Text :=
  if isMultiObjective && !metrics.ranks.isEmpty then metricsColumns functions metrics i
  else some []

/-- A row (`benchmark_stats.cpp:85-125`). -/
def csvRow (functions : StatsFunctions D) (isMultiObjective : Bool) (sorted : SortedPoints D)
    (bestIndividualFitness : VectorDouble D) (i : Nat) : Option Text := do
  let point ← sorted.points[i]?
  let fitness ← sorted.fitnesses[i]?
  let pointID ← sorted.pointIDs[i]?
  let increase ← percentages functions bestIndividualFitness fitness
  let elapsedTime ← sorted.elapsedTimes[i]?
  let multi ← multiColumns functions isMultiObjective sorted.metrics i
  return pointID ++ ',' :: doubleVectorToCsv functions point ++
    ',' :: doubleVectorToCsv functions fitness ++ ',' :: increase ++
    ',' :: functions.formatDouble elapsedTime ++ multi ++ ['\n']

/-- The indexes of the data points from best to worst. -/
def bestIndividualIndexes (ranking : Ranking D) (stats : BenchmarkStats D) : List Nat :=
  getBestNIndividualsIndexes ranking stats.problem.toProblem
    (stats.dataPoints.map stats.problem.fitness) stats.dataPoints.length

/-- Steps 1 to 4 (`benchmark_stats.cpp:24-71`). -/
def sortedPoints (functions : StatsFunctions D) (ranking : Ranking D) (stats : BenchmarkStats D) :
    Option (SortedPoints D) := do
  let fitnesses := stats.dataPoints.map stats.problem.fitness
  let idx := stats.bestIndividualIndexes ranking
  let points ← idx.mapM fun k => stats.dataPoints[k]?
  let sortedFitnesses ← idx.mapM fun k => fitnesses[k]?
  let pointIDs ← idx.mapM fun k => stats.pointIDs[k]?
  let elapsedTimes ← idx.mapM fun k => stats.elapsedTimes[k]?
  let metrics := if stats.isMultiObjective ∧ 2 ≤ sortedFitnesses.length
    then functions.metrics sortedFitnesses else {}
  return { points, fitnesses := sortedFitnesses, pointIDs, elapsedTimes, metrics }

/-- `_get_current_stats_csv` (`benchmark_stats.cpp:11-128`). -/
def getCurrentStatsCsv (functions : StatsFunctions D) (ranking : Ranking D)
    (stats : BenchmarkStats D) : Option Text := do
  let sorted ← stats.sortedPoints functions ranking
  let bestIndividualFitness ← sorted.fitnesses[0]?
  let rows ← (List.range sorted.points.length).mapM
    (csvRow functions stats.isMultiObjective sorted bestIndividualFitness)
  return csvHeader stats.isMultiObjective ++ rows.flatten

def setProblem (stats : BenchmarkStats D) (problem : BenchmarkProblem D) : BenchmarkStats D :=
  { stats with problem }

/-- `add_data_point` (`benchmark_stats.cpp:170-175`). -/
def addDataPoint (stats : BenchmarkStats D) (result : VectorDouble D) (pointID : Text)
    (elapsedTime : D) : BenchmarkStats D :=
  { stats with
    dataPoints := stats.dataPoints ++ [result]
    pointIDs := stats.pointIDs ++ [pointID]
    elapsedTimes := stats.elapsedTimes ++ [elapsedTime]
    sized_ids := by simp [stats.sized_ids]
    sized_times := by simp [stats.sized_times] }

/-- `clear_current_measurement` (`benchmark_stats.cpp:187-192`). -/
def clearCurrentMeasurement (stats : BenchmarkStats D) : BenchmarkStats D :=
  { problem := stats.problem, csvStatsBuffer := stats.csvStatsBuffer }

/-- `end_current_measurement` (`benchmark_stats.cpp:177-185`). -/
def endCurrentMeasurement (functions : StatsFunctions D) (ranking : Ranking D)
    (stats : BenchmarkStats D) (measurementName : Text) : Option (BenchmarkStats D) := do
  let name := if measurementName = [] then stats.problem.name
    else measurementName ++ " (".toList ++ stats.problem.name ++ ")".toList
  let csv ← stats.getCurrentStatsCsv functions ranking
  return { stats with
    csvStatsBuffer := stats.csvStatsBuffer ++ [(csv, name)] }.clearCurrentMeasurement

end BenchmarkStats

end Metasolver
