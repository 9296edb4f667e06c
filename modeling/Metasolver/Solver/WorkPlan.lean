import Metasolver.Lib.Except
import Metasolver.Controller.Handlers
import Mathlib.Data.Rat.Floor

/-!
# `distributed_solver::_generate_work_plan`

The input parameters of each island (`distributed_solver.cpp:24-157`).  The plan is
computed while the server thread goes on, so the record of a worker may change
between two calls of `get_worker_info`.  The function reads each worker once for
each island; `getWorkerInfo i w` is what it finds for worker `w` in the search for
the `i`-th island.

`DoubleArith` is the arithmetic of `double`, with the two facts about it that the
search relies on.  Dereferencing an empty optional or the end of the algorithm
list, and an integer division by zero, are undefined.
-/

namespace Metasolver

/-- Arithmetic on `double`. -/
structure DoubleArith (D : Type) where
  /-- `static_cast<double>`. -/
  ofUInt64 : UInt64 → D
  add : D → D → D
  mul : D → D → D
  div : D → D → D
  le : D → D → Bool
  lt : D → D → Bool
  /-- `static_cast<size_t>`. -/
  toUInt64 : D → UInt64
  zero_le_zero : le (ofUInt64 0) (ofUInt64 0) = true
  zero_le_div : ∀ a b, 0 < b → le (ofUInt64 0) (div (ofUInt64 a) (ofUInt64 b)) = true

/-- `double` read as exact rationals. -/
def DoubleArith.rational : DoubleArith ℚ where
  ofUInt64 a := a.toNat
  add a b := a + b
  mul a b := a * b
  div a b := a / b
  le a b := decide (a ≤ b)
  lt a b := decide (a < b)
  toUInt64 a := UInt64.ofNat ⌊a⌋.toNat
  zero_le_zero := by simp
  zero_le_div a b _ := by
    have quotient : (0 : ℚ) ≤ (a.toNat : ℚ) / (b.toNat : ℚ) :=
      div_nonneg (Nat.cast_nonneg _) (Nat.cast_nonneg _)
    simpa using quotient

/-- `load_balancing_strategy`. -/
inductive LoadBalancingStrategy where
  | allIslandsEqual
  | byPerformance
  deriving DecidableEq, Repr

/-- An entry of the plan: `[populationSize, cycleCount, preferredWorkerId, algorithm]`. -/
structure PlanEntry (Algo : Type) where
  populationSize : UInt64
  cycleCount : Nat
  preferredWorkerId : WorkerId
  algorithm : Algo
  deriving DecidableEq, Repr

variable {D Algo : Type}

/-- `safe_divide` (`number_utils.h:11-16`). -/
def safeDivide (arith : DoubleArith D) (a b : UInt64) : D :=
  if 0 < b then arith.div (arith.ofUInt64 a) (arith.ofUInt64 b) else arith.ofUInt64 0

/-- `ceil_to_multiple` (`number_utils.h:24-30`). -/
def ceilToMultiple (input multiple : UInt64) : UInt64 :=
  let rem := input % multiple
  if rem = 0 then input else input + (multiple - rem)

/-- `getAlgorithm`, the round-robin chooser; `algorithmPtr` is a position in the list. -/
def getAlgorithm (algorithms : List Algo) (algorithmPtr : Nat) : Except Fault (Algo × Nat) :=
  let algorithmPtr := if algorithmPtr = algorithms.length then 0 else algorithmPtr
  match algorithms[algorithmPtr]? with
  | none => .error .undefinedBehaviour
  | some alg => .ok (alg, algorithmPtr + 1)

/-- The best workers seen so far in the search for one island. -/
structure BestWorkers (D : Type) where
  bestTotalAvg : D
  bestTotalWorkerId : WorkerId := ""
  bestAlgoAvg : D
  bestAlgoWorkerId : WorkerId := ""

/-- The body of the loop over the connected workers
    (`distributed_solver.cpp:80-110`). -/
def considerWorker (arith : DoubleArith D) (algoName : String)
    (getWorkerInfo : WorkerId → Option WorkerInfo) (best : BestWorkers D) (workerId : WorkerId) :
    Except Fault (BestWorkers D) :=
  match getWorkerInfo workerId with
  | none => .error .undefinedBehaviour
  | some wInfo =>
      let wTotalAvg := safeDivide arith wInfo.totalStats.processedPopulation
        wInfo.totalStats.workTime
      let wAlgoAvg := match wInfo.statsByAlgorithm.lookup algoName with
        | none => arith.ofUInt64 0
        | some algoStats => safeDivide arith algoStats.processedPopulation algoStats.workTime
      let best :=
        if arith.le best.bestTotalAvg wTotalAvg then
          { best with bestTotalAvg := wTotalAvg, bestTotalWorkerId := workerId }
        else best
      let best :=
        if arith.le best.bestAlgoAvg wAlgoAvg then
          { best with bestAlgoAvg := wAlgoAvg, bestAlgoWorkerId := workerId }
        else best
      .ok best

/-- The search for one island, over the workers in the order of the container. -/
def findBestWorkers (arith : DoubleArith D) (algoName : String)
    (getWorkerInfo : WorkerId → Option WorkerInfo) (workers : List WorkerId) :
    Except Fault (BestWorkers D) :=
  workers.foldlM (considerWorker arith algoName getWorkerInfo)
    { bestTotalAvg := arith.ofUInt64 0, bestAlgoAvg := arith.ofUInt64 0 }

/-- An element of `workersPreprocessed`. -/
structure AssignedWorker (D Algo : Type) where
  workerId : WorkerId
  algorithm : Algo
  perfMetric : D

/-- The algorithm stats decide, unless the total stats are more than twice as good. -/
def chosenWorker (arith : DoubleArith D) (best : BestWorkers D) : WorkerId × D :=
  if arith.lt (arith.mul (arith.ofUInt64 2) best.bestAlgoAvg) best.bestTotalAvg then
    (best.bestTotalWorkerId, best.bestTotalAvg)
  else (best.bestAlgoWorkerId, best.bestAlgoAvg)

/-- Workers are assigned to algorithms, the best one for each island in turn
    (`distributed_solver.cpp:68-120`); `i` counts the islands served so far. -/
def assignWorkers (arith : DoubleArith D) (order : IterationOrder WorkerId)
    (getWorkerInfo : Nat → WorkerId → Option WorkerInfo) (algorithms : List Algo)
    (getName : Algo → String) :
    (islands i algorithmPtr : Nat) → (connectedWorkers : Finset WorkerId) →
      Except Fault (List (AssignedWorker D Algo))
  | 0, _, _, _ => .ok []
  | islands + 1, i, algorithmPtr, connectedWorkers => do
      let (currentAlgorithm, algorithmPtr) ← getAlgorithm algorithms algorithmPtr
      let best ← findBestWorkers arith (getName currentAlgorithm) (getWorkerInfo i)
        (order.toList connectedWorkers)
      let (chosenWorkerId, chosenAvg) := chosenWorker arith best
      let rest ← assignWorkers arith order getWorkerInfo algorithms getName islands (i + 1)
        algorithmPtr (connectedWorkers.erase chosenWorkerId)
      return ⟨chosenWorkerId, currentAlgorithm, chosenAvg⟩ :: rest

/-- The population size in proportion to the share in the total performance
    (`distributed_solver.cpp:122-154`). -/
def performanceEntry (arith : DoubleArith D) (populationSize minIslandPopSize : UInt64)
    (totalPerformance : D) (workers : Nat) (worker : AssignedWorker D Algo) : PlanEntry Algo :=
  let workerPerfPercentage :=
    if arith.lt (arith.ofUInt64 0) totalPerformance then
      arith.div worker.perfMetric totalPerformance
    else arith.div (arith.ofUInt64 1) (arith.ofUInt64 (UInt64.ofNat workers))
  let workerPopSize :=
    arith.toUInt64 (arith.mul (arith.ofUInt64 populationSize) workerPerfPercentage)
  let finalWorkerPopSize := ceilToMultiple (max minIslandPopSize workerPopSize) 4
  ⟨finalWorkerPopSize, 1, worker.workerId, worker.algorithm⟩

/-- The algorithms of `islands` entries in a row. -/
def chooseAlgorithms (algorithms : List Algo) :
    (islands algorithmPtr : Nat) → Except Fault (List Algo)
  | 0, _ => .ok []
  | islands + 1, algorithmPtr => do
      let (alg, algorithmPtr) ← getAlgorithm algorithms algorithmPtr
      let rest ← chooseAlgorithms algorithms islands algorithmPtr
      return alg :: rest

/-- Whether the work is divided equally. -/
def dividesEqually (strategy : LoadBalancingStrategy) (islandCount : UInt64)
    (connectedWorkers : Finset WorkerId) : Prop :=
  islandCount.toNat > connectedWorkers.card ∨ strategy = .allIslandsEqual

instance (strategy : LoadBalancingStrategy) (islandCount : UInt64)
    (connectedWorkers : Finset WorkerId) :
    Decidable (dividesEqually strategy islandCount connectedWorkers) :=
  inferInstanceAs (Decidable (_ ∨ _))

/-- `_generate_work_plan` (`distributed_solver.cpp:24-157`). -/
def generateWorkPlan (arith : DoubleArith D) (order : IterationOrder WorkerId)
    (strategy : LoadBalancingStrategy) (connectedWorkers : Finset WorkerId)
    (getWorkerInfo : Nat → WorkerId → Option WorkerInfo) (getName : Algo → String)
    (islandCount populationSize : UInt64) (algorithms : List Algo) (minIslandPopSize : UInt64) :
    Except Fault (List (PlanEntry Algo)) :=
  if dividesEqually strategy islandCount connectedWorkers then
    if islandCount = 0 then .error .undefinedBehaviour
    else do
      let islandPop := ceilToMultiple (max minIslandPopSize (populationSize / islandCount)) 4
      let chosen ← chooseAlgorithms algorithms islandCount.toNat 0
      return chosen.map fun alg => ⟨islandPop, 1, "", alg⟩
  else do
    let workersPreprocessed ← assignWorkers arith order getWorkerInfo algorithms getName
      islandCount.toNat 0 0 connectedWorkers
    let totalPerformance := workersPreprocessed.foldl
      (fun total worker => arith.add total worker.perfMetric) (arith.ofUInt64 0)
    return workersPreprocessed.map (performanceEntry arith populationSize minIslandPopSize
      totalPerformance workersPreprocessed.length)

/-! ## The workers of a plan -/

variable {arith : DoubleArith D} {order : IterationOrder WorkerId} {algoName : String}

theorem zero_le_safeDivide (a b : UInt64) :
    arith.le (arith.ofUInt64 0) (safeDivide arith a b) = true := by
  unfold safeDivide
  split_ifs with positive
  · exact arith.zero_le_div a b positive
  · exact arith.zero_le_zero

/-- A worker either takes a place or leaves it to the one that holds it. -/
theorem considerWorker_ids {info : WorkerId → Option WorkerInfo} {best best' : BestWorkers D}
    {w : WorkerId} (h : considerWorker arith algoName info best w = .ok best') :
    (best'.bestTotalWorkerId = w ∨ best'.bestTotalWorkerId = best.bestTotalWorkerId) ∧
      (best'.bestAlgoWorkerId = w ∨ best'.bestAlgoWorkerId = best.bestAlgoWorkerId) := by
  unfold considerWorker at h
  split at h
  case h_1 => cases h
  case h_2 wInfo found =>
    simp only [Except.ok.injEq] at h
    subst h
    refine ⟨?_, ?_⟩ <;> split_ifs <;> simp

/-- The first worker considered takes both places, since no average is below zero. -/
theorem considerWorker_first {info : WorkerId → Option WorkerInfo} {best' : BestWorkers D}
    {w : WorkerId} (h : considerWorker arith algoName info
      { bestTotalAvg := arith.ofUInt64 0, bestAlgoAvg := arith.ofUInt64 0 } w = .ok best') :
    best'.bestTotalWorkerId = w ∧ best'.bestAlgoWorkerId = w := by
  unfold considerWorker at h
  split at h
  case h_1 => cases h
  case h_2 wInfo found =>
    have algoAvg : arith.le (arith.ofUInt64 0)
        (match wInfo.statsByAlgorithm.lookup algoName with
          | none => arith.ofUInt64 0
          | some algoStats =>
            safeDivide arith algoStats.processedPopulation algoStats.workTime) = true := by
      split
      · exact arith.zero_le_zero
      · exact zero_le_safeDivide _ _
    simp only [zero_le_safeDivide, if_true, algoAvg, Except.ok.injEq] at h
    subst h
    exact ⟨rfl, rfl⟩

theorem foldlM_considerWorker_ids {info : WorkerId → Option WorkerInfo}
    {best best' : BestWorkers D} {workers : List WorkerId}
    (h : workers.foldlM (considerWorker arith algoName info) best = .ok best') :
    best'.bestTotalWorkerId ∈ best.bestTotalWorkerId :: workers ∧
      best'.bestAlgoWorkerId ∈ best.bestAlgoWorkerId :: workers := by
  induction workers generalizing best with
  | nil =>
      rw [List.foldlM_nil, Except.pure_eq_ok_iff] at h
      subst h
      simp
  | cons w workers ih =>
      rw [List.foldlM_cons] at h
      obtain ⟨next, first, rest⟩ := Except.bind_eq_ok_iff.mp h
      obtain ⟨total, algo⟩ := considerWorker_ids first
      obtain ⟨totalMem, algoMem⟩ := ih rest
      refine ⟨?_, ?_⟩
      · rcases List.mem_cons.mp totalMem with same | later
        · rcases total with now | before
          · simp [same, now]
          · simp [same, before]
        · simp [later]
      · rcases List.mem_cons.mp algoMem with same | later
        · rcases algo with now | before
          · simp [same, now]
          · simp [same, before]
        · simp [later]

/-- The search finds workers among those it considers. -/
theorem findBestWorkers_mem {info : WorkerId → Option WorkerInfo} {best : BestWorkers D}
    {workers : List WorkerId} (nonempty : workers ≠ [])
    (h : findBestWorkers arith algoName info workers = .ok best) :
    (chosenWorker arith best).1 ∈ workers := by
  have both : best.bestTotalWorkerId ∈ workers ∧ best.bestAlgoWorkerId ∈ workers := by
    cases workers with
    | nil => exact absurd rfl nonempty
    | cons w workers =>
        rw [findBestWorkers, List.foldlM_cons] at h
        obtain ⟨next, first, rest⟩ := Except.bind_eq_ok_iff.mp h
        obtain ⟨total, algo⟩ := considerWorker_first first
        obtain ⟨totalMem, algoMem⟩ := foldlM_considerWorker_ids rest
        rw [total] at totalMem
        rw [algo] at algoMem
        exact ⟨totalMem, algoMem⟩
  unfold chosenWorker
  split_ifs
  · exact both.1
  · exact both.2

/-- What the assignment of one more island goes through. -/
theorem assignWorkers_succ {getWorkerInfo : Nat → WorkerId → Option WorkerInfo}
    {algorithms : List Algo} {getName : Algo → String} {islands i algorithmPtr : Nat}
    {connectedWorkers : Finset WorkerId} {assigned : List (AssignedWorker D Algo)}
    (h : assignWorkers arith order getWorkerInfo algorithms getName (islands + 1) i algorithmPtr
      connectedWorkers = .ok assigned) :
    ∃ alg next best rest, getAlgorithm algorithms algorithmPtr = .ok (alg, next) ∧
      findBestWorkers arith (getName alg) (getWorkerInfo i) (order.toList connectedWorkers) =
        .ok best ∧
      assignWorkers arith order getWorkerInfo algorithms getName islands (i + 1) next
        (connectedWorkers.erase (chosenWorker arith best).1) = .ok rest ∧
      assigned = ⟨(chosenWorker arith best).1, alg, (chosenWorker arith best).2⟩ :: rest := by
  obtain ⟨⟨alg, next⟩, chosen, h⟩ := Except.bind_eq_ok_iff.mp h
  obtain ⟨best, found, h⟩ := Except.bind_eq_ok_iff.mp h
  obtain ⟨rest, tail, h⟩ := Except.bind_eq_ok_iff.mp h
  rw [Except.pure_eq_ok_iff] at h
  exact ⟨alg, next, best, rest, chosen, found, tail, h.symm⟩

/-- As long as there are enough workers, each island gets one of its own. -/
theorem assignWorkers_distinct {getWorkerInfo : Nat → WorkerId → Option WorkerInfo}
    {algorithms : List Algo} {getName : Algo → String} {islands i algorithmPtr : Nat}
    {connectedWorkers : Finset WorkerId} {assigned : List (AssignedWorker D Algo)}
    (enough : islands ≤ connectedWorkers.card)
    (h : assignWorkers arith order getWorkerInfo algorithms getName islands i algorithmPtr
      connectedWorkers = .ok assigned) :
    assigned.length = islands ∧ (assigned.map AssignedWorker.workerId).Nodup ∧
      ∀ worker ∈ assigned, worker.workerId ∈ connectedWorkers := by
  induction islands generalizing i algorithmPtr connectedWorkers assigned with
  | zero =>
      simp only [assignWorkers, Except.ok.injEq] at h
      subst h
      simp
  | succ islands ih =>
      obtain ⟨alg, next, best, rest, -, found, tail, rfl⟩ := assignWorkers_succ h
      have nonempty : order.toList connectedWorkers ≠ [] :=
        order.toList_ne_nil (Finset.card_pos.mp (by omega))
      have member : (chosenWorker arith best).1 ∈ connectedWorkers :=
        (order.mem_toList _ _).mp (findBestWorkers_mem nonempty found)
      have left : islands ≤ (connectedWorkers.erase (chosenWorker arith best).1).card := by
        rw [Finset.card_erase_of_mem member]
        omega
      obtain ⟨length, distinct, connected⟩ := ih left tail
      refine ⟨by rw [List.length_cons, length], ?_, ?_⟩
      · rw [List.map_cons, List.nodup_cons]
        refine ⟨fun again => ?_, distinct⟩
        obtain ⟨worker, later, same⟩ := List.mem_map.mp again
        have erased := connected worker later
        rw [same] at erased
        exact Finset.notMem_erase _ _ erased
      · intro worker assigned
        rcases List.mem_cons.mp assigned with rfl | later
        · exact member
        · exact Finset.mem_of_mem_erase (connected worker later)

/-- The work is divided by performance if there are enough workers for that. -/
theorem not_dividesEqually {strategy : LoadBalancingStrategy} {islandCount : UInt64}
    {connectedWorkers : Finset WorkerId} :
    ¬dividesEqually strategy islandCount connectedWorkers ↔
      islandCount.toNat ≤ connectedWorkers.card ∧ strategy = .byPerformance := by
  unfold dividesEqually
  cases strategy <;> simp

/-- A plan by performance has an entry for each island, with workers that are
    connected and pairwise distinct. -/
theorem generateWorkPlan_distinct {getWorkerInfo : Nat → WorkerId → Option WorkerInfo}
    {algorithms : List Algo} {getName : Algo → String}
    {islandCount populationSize minIslandPopSize : UInt64}
    {connectedWorkers : Finset WorkerId} {plan : List (PlanEntry Algo)}
    (enough : islandCount.toNat ≤ connectedWorkers.card)
    (h : generateWorkPlan arith order .byPerformance connectedWorkers getWorkerInfo getName
      islandCount populationSize algorithms minIslandPopSize = .ok plan) :
    plan.length = islandCount.toNat ∧ (plan.map PlanEntry.preferredWorkerId).Nodup ∧
      ∀ entry ∈ plan, entry.preferredWorkerId ∈ connectedWorkers := by
  rw [generateWorkPlan, if_neg (not_dividesEqually.mpr ⟨enough, rfl⟩)] at h
  obtain ⟨assigned, run, h⟩ := Except.bind_eq_ok_iff.mp h
  rw [Except.pure_eq_ok_iff] at h
  subst h
  obtain ⟨length, distinct, connected⟩ := assignWorkers_distinct enough run
  refine ⟨by rw [List.length_map, length], ?_, ?_⟩
  · rw [List.map_map]
    exact distinct
  · intro entry member
    obtain ⟨worker, assigned, rfl⟩ := List.mem_map.mp member
    exact connected worker assigned

/-! ## The sizes of a plan -/

/-- `ceil_to_multiple` yields the next multiple of 4, modulo 2^64. -/
theorem toNat_ceilToMultiple (input : UInt64) :
    (ceilToMultiple input 4).toNat = (input.toNat + 3) / 4 * 4 % 2 ^ 64 := by
  have bounded := input.toNat_lt
  have rem : (input % 4).toNat = input.toNat % 4 := UInt64.toNat_mod input 4
  unfold ceilToMultiple
  by_cases divisible : input % 4 = 0
  · rw [if_pos divisible]
    rw [divisible] at rem
    change 0 = input.toNat % 4 at rem
    omega
  · rw [if_neg divisible]
    have below : input % 4 ≤ 4 := by
      rw [UInt64.le_iff_toNat_le, rem]
      exact (Nat.mod_lt _ (by decide)).le
    have some_ : (input % 4).toNat ≠ 0 := fun zero => divisible (UInt64.toNat_inj.mp zero)
    rw [UInt64.toNat_add, UInt64.toNat_sub_of_le _ _ below, rem]
    change (input.toNat + (4 - input.toNat % 4)) % 2 ^ 64 = _
    omega

theorem dvd_ceilToMultiple (input : UInt64) : 4 ∣ (ceilToMultiple input 4).toNat := by
  rw [toNat_ceilToMultiple]
  omega

/-- Every size of a plan is a multiple of 4. -/
theorem generateWorkPlan_multiple {strategy : LoadBalancingStrategy}
    {connectedWorkers : Finset WorkerId} {getWorkerInfo : Nat → WorkerId → Option WorkerInfo}
    {getName : Algo → String} {islandCount populationSize minIslandPopSize : UInt64}
    {algorithms : List Algo} {plan : List (PlanEntry Algo)}
    (h : generateWorkPlan arith order strategy connectedWorkers getWorkerInfo getName islandCount
      populationSize algorithms minIslandPopSize = .ok plan) :
    ∀ entry ∈ plan, 4 ∣ entry.populationSize.toNat := by
  intro entry member
  unfold generateWorkPlan at h
  split_ifs at h
  · obtain ⟨chosen, -, h⟩ := Except.bind_eq_ok_iff.mp h
    rw [Except.pure_eq_ok_iff] at h
    subst h
    obtain ⟨alg, -, rfl⟩ := List.mem_map.mp member
    exact dvd_ceilToMultiple _
  · obtain ⟨assigned, -, h⟩ := Except.bind_eq_ok_iff.mp h
    rw [Except.pure_eq_ok_iff] at h
    subst h
    obtain ⟨worker, -, rfl⟩ := List.mem_map.mp member
    exact dvd_ceilToMultiple _

end Metasolver
