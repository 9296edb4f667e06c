import Metasolver.Solver.WorkPlan
import Metasolver.Lib.RunningMax

/-!
# The workers a plan by performance picks

The search for one island keeps two running maxima over the connected workers, one of the
total averages and one of the averages by algorithm.  No average is negative and the
loop starts at zero with a tie going to the later worker, so both maxima are attained
by a worker, for every order of the container.  The worker picked leaves the set, so
the next island is served from what is left.

The averages are exact rationals here.  That the plan comes about at all needs only
an algorithm to choose and a record for each connected worker.
-/

namespace Metasolver

open RunningMax

variable {D Algo : Type} {arith : DoubleArith D} {order : IterationOrder WorkerId}
  {algoName : String} {algorithms : List Algo} {algorithmPtr i : Nat}

/-! ## The algorithms in turn -/

/-- `algorithmPtr` after `i` algorithms have been chosen. -/
structure PointsTo (algorithms : List Algo) (i algorithmPtr : Nat) : Prop where
  inside : algorithmPtr ≤ algorithms.length
  turn : algorithmPtr % algorithms.length = i % algorithms.length

theorem PointsTo.start : PointsTo algorithms 0 0 := ⟨Nat.zero_le _, rfl⟩

/-- A list with an algorithm serves every island, in turn. -/
theorem getAlgorithm_turn (nonempty : algorithms ≠ [])
    (points : PointsTo algorithms i algorithmPtr) :
    ∃ alg next, getAlgorithm algorithms algorithmPtr = .ok (alg, next) ∧
      algorithms[i % algorithms.length]? = some alg ∧ PointsTo algorithms (i + 1) next := by
  have some_ : 0 < algorithms.length := List.length_pos_of_ne_nil nonempty
  have inside := points.inside
  have turn := points.turn
  unfold getAlgorithm
  by_cases atEnd : algorithmPtr = algorithms.length
  · rw [atEnd, Nat.mod_self] at turn
    refine ⟨algorithms[0], 1, ?_, ?_, by omega, ?_⟩
    · simp [atEnd, List.getElem?_eq_getElem some_]
    · rw [← turn, List.getElem?_eq_getElem some_]
    · rw [Nat.add_mod, ← turn, Nat.zero_add, Nat.mod_mod]
  · have before : algorithmPtr < algorithms.length := by omega
    rw [Nat.mod_eq_of_lt before] at turn
    refine ⟨algorithms[algorithmPtr], algorithmPtr + 1, ?_, ?_, by omega, ?_⟩
    · simp [atEnd, List.getElem?_eq_getElem before]
    · rw [← turn, List.getElem?_eq_getElem before]
    · rw [Nat.add_mod i, ← turn, Nat.add_mod algorithmPtr, Nat.mod_eq_of_lt before]

/-- Equal division chooses the algorithms in turn. -/
theorem chooseAlgorithms_turn (islands : Nat) (nonempty : algorithms ≠ [])
    (points : PointsTo algorithms i algorithmPtr) :
    ∃ chosen, chooseAlgorithms algorithms islands algorithmPtr = .ok chosen ∧
      chosen.length = islands := by
  induction islands generalizing i algorithmPtr with
  | zero => exact ⟨[], rfl, rfl⟩
  | succ islands ih =>
      obtain ⟨alg, next, chosen, -, points⟩ := getAlgorithm_turn nonempty points
      obtain ⟨rest, run, length⟩ := ih points
      refine ⟨alg :: rest, ?_, by rw [List.length_cons, length]⟩
      simp only [chooseAlgorithms, chosen, run, bind, Except.bind, pure, Except.pure]

/-! ## A plan comes about -/

theorem considerWorker_ok {info : WorkerId → Option WorkerInfo} {best : BestWorkers D}
    {w : WorkerId} (record : (info w).isSome) :
    ∃ best', considerWorker arith algoName info best w = .ok best' := by
  obtain ⟨wInfo, found⟩ := Option.isSome_iff_exists.mp record
  rw [considerWorker, found]
  exact ⟨_, rfl⟩

theorem foldlM_considerWorker_ok {info : WorkerId → Option WorkerInfo} {best : BestWorkers D}
    {workers : List WorkerId} (records : ∀ w ∈ workers, (info w).isSome) :
    ∃ best', workers.foldlM (considerWorker arith algoName info) best = .ok best' := by
  induction workers generalizing best with
  | nil => exact ⟨best, rfl⟩
  | cons w workers ih =>
      obtain ⟨next, first⟩ := considerWorker_ok (records w List.mem_cons_self)
      obtain ⟨best', rest⟩ := ih fun v later => records v (List.mem_cons_of_mem w later)
      exact ⟨best', by rw [List.foldlM_cons, first]; exact rest⟩

/-- With an algorithm and a record for each connected worker, every island is served. -/
theorem assignWorkers_ok (arith : DoubleArith D) (order : IterationOrder WorkerId)
    {getWorkerInfo : Nat → WorkerId → Option WorkerInfo} (getName : Algo → String)
    (islands : Nat) {connectedWorkers : Finset WorkerId}
    (records : ∀ i, ∀ w ∈ connectedWorkers, (getWorkerInfo i w).isSome)
    (nonempty : algorithms ≠ []) (points : PointsTo algorithms i algorithmPtr) :
    ∃ assigned, assignWorkers arith order getWorkerInfo algorithms getName islands i
      algorithmPtr connectedWorkers = .ok assigned := by
  induction islands generalizing i algorithmPtr connectedWorkers with
  | zero => exact ⟨[], rfl⟩
  | succ islands ih =>
      obtain ⟨alg, next, chosen, -, points⟩ := getAlgorithm_turn nonempty points
      obtain ⟨best, search⟩ := @foldlM_considerWorker_ok D arith (getName alg) (getWorkerInfo i)
        { bestTotalAvg := arith.ofUInt64 0, bestAlgoAvg := arith.ofUInt64 0 }
        (order.toList connectedWorkers)
        fun w member => records i w ((order.mem_toList _ _).mp member)
      have fewer : ∀ i, ∀ w ∈ connectedWorkers.erase (chosenWorker arith best).1,
          (getWorkerInfo i w).isSome :=
        fun i w member => records i w (Finset.mem_of_mem_erase member)
      obtain ⟨rest, run⟩ := ih fewer points
      refine ⟨⟨(chosenWorker arith best).1, alg, (chosenWorker arith best).2⟩ :: rest, ?_⟩
      simp only [assignWorkers, chosen, findBestWorkers, search, run, bind, Except.bind, pure,
        Except.pure]

/-! ## The best choice -/

/-- Population by work time, 0 if no time was spent. -/
def WorkStats.average (stats : WorkStats) : ℚ :=
  if stats.workTime = 0 then 0 else stats.processedPopulation.toNat / stats.workTime.toNat

/-- The total average of a worker, 0 if there is no record. -/
def totalAvg (getWorkerInfo : WorkerId → Option WorkerInfo) (workerId : WorkerId) : ℚ :=
  match getWorkerInfo workerId with
  | none => 0
  | some wInfo => wInfo.totalStats.average

/-- The average of a worker by algorithm, 0 if there is no record. -/
def algoAvg (algoName : String) (getWorkerInfo : WorkerId → Option WorkerInfo)
    (workerId : WorkerId) : ℚ :=
  match getWorkerInfo workerId with
  | none => 0
  | some wInfo =>
      match wInfo.statsByAlgorithm.lookup algoName with
      | none => 0
      | some algoStats => algoStats.average

/-- `w` is in `left` and has the largest average by algorithm there, unless the largest
    total average is more than twice that; then it has the largest total average. -/
def BestChoice (algoName : String) (getWorkerInfo : WorkerId → Option WorkerInfo)
    (left : Finset WorkerId) (w : WorkerId) : Prop :=
  w ∈ left ∧ ∃ bestTotal bestAlgo,
    IsGreatest (Set.image (totalAvg getWorkerInfo) left) bestTotal ∧
    IsGreatest (Set.image (algoAvg algoName getWorkerInfo) left) bestAlgo ∧
    if 2 * bestAlgo < bestTotal then totalAvg getWorkerInfo w = bestTotal
    else algoAvg algoName getWorkerInfo w = bestAlgo

variable {info : WorkerId → Option WorkerInfo} {w : WorkerId} {left : Finset WorkerId}

theorem average_nonneg (stats : WorkStats) : 0 ≤ stats.average := by
  unfold WorkStats.average
  split_ifs
  · exact le_refl _
  · exact div_nonneg (Nat.cast_nonneg _) (Nat.cast_nonneg _)

theorem totalAvg_nonneg : 0 ≤ totalAvg info w := by
  unfold totalAvg
  split
  · exact le_refl _
  · exact average_nonneg _

theorem algoAvg_nonneg : 0 ≤ algoAvg algoName info w := by
  unfold algoAvg
  split
  · exact le_refl _
  · split
    · exact le_refl _
    · exact average_nonneg _

/-- `safe_divide` on the two counters of a record. -/
theorem safeDivide_rational (stats : WorkStats) :
    safeDivide .rational stats.processedPopulation stats.workTime = stats.average := by
  unfold safeDivide WorkStats.average
  by_cases none_ : stats.workTime = 0
  · rw [if_pos none_, if_neg (by rw [none_]; decide)]
    exact Nat.cast_zero
  · rw [if_neg none_, if_pos (UInt64.pos_iff_ne_zero.mpr none_)]
    rfl

/-- The best total average and its worker. -/
def BestWorkers.total (best : BestWorkers D) : D × WorkerId :=
  (best.bestTotalAvg, best.bestTotalWorkerId)

/-- The best average by algorithm and its worker. -/
def BestWorkers.algo (best : BestWorkers D) : D × WorkerId :=
  (best.bestAlgoAvg, best.bestAlgoWorkerId)

/-- The body of the loop in terms of the two averages. -/
theorem considerWorker_rational {best : BestWorkers ℚ} {wInfo : WorkerInfo}
    (found : info w = some wInfo) :
    considerWorker .rational algoName info best w = .ok
      (let best :=
        if best.bestTotalAvg ≤ totalAvg info w then
          { best with bestTotalAvg := totalAvg info w, bestTotalWorkerId := w }
        else best
      if best.bestAlgoAvg ≤ algoAvg algoName info w then
        { best with bestAlgoAvg := algoAvg algoName info w, bestAlgoWorkerId := w }
      else best) := by
  have total : totalAvg info w = wInfo.totalStats.average := by rw [totalAvg, found]
  unfold considerWorker
  simp only [found, safeDivide_rational, total]
  cases known : wInfo.statsByAlgorithm.lookup algoName with
  | none =>
      have algo : algoAvg algoName info w = DoubleArith.rational.ofUInt64 0 := by
        simp [algoAvg, found, known, DoubleArith.rational]
      simp only [algo, DoubleArith.rational, decide_eq_true_eq]
  | some algoStats =>
      have algo : algoAvg algoName info w = algoStats.average := by
        simp only [algoAvg, found, known]
      simp only [algo, DoubleArith.rational, decide_eq_true_eq]

/-- One worker is weighed in both running maxima. -/
theorem considerWorker_keepBest {best best' : BestWorkers ℚ}
    (h : considerWorker .rational algoName info best w = .ok best') :
    best'.total = keepBest (totalAvg info) best.total w ∧
      best'.algo = keepBest (algoAvg algoName info) best.algo w := by
  cases found : info w with
  | none => simp [considerWorker, found] at h
  | some wInfo =>
      rw [considerWorker_rational found, Except.ok.injEq] at h
      subst h
      by_cases total : best.bestTotalAvg ≤ totalAvg info w <;>
        by_cases algo : best.bestAlgoAvg ≤ algoAvg algoName info w <;>
        simp [keepBest, BestWorkers.total, BestWorkers.algo, total, algo]

theorem foldlM_considerWorker_keepBest {best best' : BestWorkers ℚ} {workers : List WorkerId}
    (h : workers.foldlM (considerWorker .rational algoName info) best = .ok best') :
    best'.total = workers.foldl (keepBest (totalAvg info)) best.total ∧
      best'.algo = workers.foldl (keepBest (algoAvg algoName info)) best.algo := by
  induction workers generalizing best with
  | nil =>
      rw [List.foldlM_nil, Except.pure_eq_ok_iff] at h
      subst h
      exact ⟨rfl, rfl⟩
  | cons w workers ih =>
      rw [List.foldlM_cons] at h
      obtain ⟨next, first, rest⟩ := Except.bind_eq_ok_iff.mp h
      obtain ⟨total, algo⟩ := considerWorker_keepBest first
      obtain ⟨totalRest, algoRest⟩ := ih rest
      rw [List.foldl_cons, List.foldl_cons, ← total, ← algo]
      exact ⟨totalRest, algoRest⟩

theorem ofUInt64_zero : DoubleArith.rational.ofUInt64 0 = 0 := Nat.cast_zero

/-- The search for one island, as two running maxima that start at zero. -/
theorem findBestWorkers_keepBest {best : BestWorkers ℚ} {workers : List WorkerId}
    (h : findBestWorkers .rational algoName info workers = .ok best) :
    best.total = workers.foldl (keepBest (totalAvg info)) (0, "") ∧
      best.algo = workers.foldl (keepBest (algoAvg algoName info)) (0, "") := by
  obtain ⟨total, algo⟩ := foldlM_considerWorker_keepBest h
  rw [total, algo, BestWorkers.total, BestWorkers.algo, ofUInt64_zero]
  exact ⟨rfl, rfl⟩

theorem chosenWorker_rational {best : BestWorkers ℚ} :
    chosenWorker .rational best =
      if 2 * best.algo.1 < best.total.1 then best.total.swap else best.algo.swap := by
  have test : DoubleArith.rational.lt
      (DoubleArith.rational.mul (DoubleArith.rational.ofUInt64 2) best.bestAlgoAvg)
      best.bestTotalAvg = true ↔ 2 * best.algo.1 < best.total.1 := by
    simp [DoubleArith.rational, BestWorkers.total, BestWorkers.algo]
  unfold chosenWorker
  by_cases preferTotal : 2 * best.algo.1 < best.total.1
  · rw [if_pos (test.mpr preferTotal), if_pos preferTotal]
    rfl
  · rw [if_neg fun prefers => preferTotal (test.mp prefers), if_neg preferTotal]
    rfl

/-- The search over a set of workers ends with the best choice. -/
theorem findBestWorkers_bestChoice {best : BestWorkers ℚ} (nonempty : order.toList left ≠ [])
    (h : findBestWorkers .rational algoName info (order.toList left) = .ok best) :
    BestChoice algoName info left (chosenWorker .rational best).1 := by
  obtain ⟨total, algo⟩ := findBestWorkers_keepBest h
  have elements : {w | w ∈ order.toList left} = (left : Set WorkerId) := by
    ext w
    exact order.mem_toList left w
  have lowTotal : ∀ w ∈ order.toList left, ((0, "") : ℚ × WorkerId).1 ≤ totalAvg info w :=
    fun w _ => totalAvg_nonneg
  have lowAlgo : ∀ w ∈ order.toList left, ((0, "") : ℚ × WorkerId).1 ≤ algoAvg algoName info w :=
    fun w _ => algoAvg_nonneg
  obtain ⟨totalMem, totalValue, totalGreatest⟩ := isGreatest_foldl nonempty lowTotal
  obtain ⟨algoMem, algoValue, algoGreatest⟩ := isGreatest_foldl nonempty lowAlgo
  rw [← total, order.mem_toList] at totalMem
  rw [← algo, order.mem_toList] at algoMem
  rw [← total] at totalValue
  rw [← algo] at algoValue
  rw [← total, elements] at totalGreatest
  rw [← algo, elements] at algoGreatest
  rw [chosenWorker_rational]
  by_cases preferTotal : 2 * best.algo.1 < best.total.1
  · rw [if_pos preferTotal]
    refine ⟨totalMem, _, _, totalGreatest, algoGreatest, ?_⟩
    rw [if_pos preferTotal]
    exact totalValue
  · rw [if_neg preferTotal]
    refine ⟨algoMem, _, _, totalGreatest, algoGreatest, ?_⟩
    rw [if_neg preferTotal]
    exact algoValue

variable {getWorkerInfo : Nat → WorkerId → Option WorkerInfo} {getName : Algo → String}
  {islands : Nat} {connectedWorkers : Finset WorkerId}

/-- Each island in turn gets the best choice among the workers that are left. -/
theorem assignWorkers_bestChoice {assigned : List (AssignedWorker ℚ Algo)}
    (nonempty : algorithms ≠ []) (points : PointsTo algorithms i algorithmPtr)
    (enough : islands ≤ connectedWorkers.card)
    (h : assignWorkers .rational order getWorkerInfo algorithms getName islands i algorithmPtr
      connectedWorkers = .ok assigned) {j : Nat} {worker : AssignedWorker ℚ Algo}
    (entry : assigned[j]? = some worker) :
    algorithms[(i + j) % algorithms.length]? = some worker.algorithm ∧
      BestChoice (getName worker.algorithm) (getWorkerInfo (i + j))
        (connectedWorkers \ ((assigned.take j).map AssignedWorker.workerId).toFinset)
        worker.workerId := by
  induction islands generalizing i algorithmPtr connectedWorkers assigned j with
  | zero =>
      simp only [assignWorkers, Except.ok.injEq] at h
      subst h
      cases entry
  | succ islands ih =>
      obtain ⟨alg, next, best, rest, chosen, found, tail, rfl⟩ := assignWorkers_succ h
      obtain ⟨_, _, same, turn, points⟩ := getAlgorithm_turn nonempty points
      obtain ⟨rfl, rfl⟩ := Prod.mk.inj (Except.ok.inj (chosen.symm.trans same))
      have some_ : connectedWorkers.Nonempty := Finset.card_pos.mp (by omega)
      have choice := findBestWorkers_bestChoice (order.toList_ne_nil some_) found
      cases j with
      | zero =>
          obtain rfl := Option.some.inj entry
          rw [List.take_zero, List.map_nil, List.toFinset_nil, Finset.sdiff_empty]
          exact ⟨turn, choice⟩
      | succ j =>
          have fewer : islands ≤ (connectedWorkers.erase (chosenWorker .rational best).1).card := by
            rw [Finset.card_erase_of_mem choice.1]
            omega
          obtain ⟨later, laterChoice⟩ := ih points fewer tail entry
          rw [List.take_succ_cons, List.map_cons, List.toFinset_cons, Finset.sdiff_insert,
            ← Finset.erase_sdiff_comm, ← Nat.add_assoc, Nat.add_right_comm]
          exact ⟨later, laterChoice⟩

/-! ## The plan -/

/-- `totalPerformance`, the sum of the metrics of the workers assigned. -/
def totalPerformance (arith : DoubleArith D) (assigned : List (AssignedWorker D Algo)) : D :=
  assigned.foldl (fun total worker => arith.add total worker.perfMetric) (arith.ofUInt64 0)

/-- A plan by performance has an entry for each worker assigned. -/
theorem generateWorkPlan_assigned {strategy : LoadBalancingStrategy}
    {islandCount : UInt64} (P m : UInt64) {assigned : List (AssignedWorker D Algo)}
    (byPerformance : ¬dividesEqually strategy islandCount connectedWorkers)
    (run : assignWorkers arith order getWorkerInfo algorithms getName islandCount.toNat 0 0
      connectedWorkers = .ok assigned) :
    generateWorkPlan arith order strategy connectedWorkers getWorkerInfo getName islandCount P
        algorithms m =
      .ok (assigned.map (performanceEntry arith P m (totalPerformance arith assigned)
        assigned.length)) := by
  rw [generateWorkPlan, if_neg byPerformance, run]
  rfl

/-- The workers of the first `i` entries. -/
def chosenBefore (plan : List (PlanEntry Algo)) (i : Nat) : Finset WorkerId :=
  ((plan.take i).map PlanEntry.preferredWorkerId).toFinset

/-- A plan by performance serves every island, with the algorithms in turn and the best
    worker that is left. -/
theorem generateWorkPlan_bestChoice (repo : WorkerInfoRepository)
    (order : IterationOrder WorkerId) (getName : Algo → String) (algorithms : List Algo)
    (islandCount populationSize minIslandPopSize : UInt64)
    (records : ∀ w ∈ repo.connectedWorkers, w ∈ repo.workerRecords)
    (nonempty : algorithms ≠ []) (enough : islandCount.toNat ≤ repo.connectedWorkers.card) :
    ∃ plan, generateWorkPlan .rational order .byPerformance repo.getConnectedWorkers
        (fun _ => repo.getWorkerInfo) getName islandCount populationSize algorithms
        minIslandPopSize = .ok plan ∧
      plan.length = islandCount.toNat ∧ (plan.map PlanEntry.preferredWorkerId).Nodup ∧
      ∀ i entry, plan[i]? = some entry →
        algorithms[i % algorithms.length]? = some entry.algorithm ∧
        entry.preferredWorkerId ∈ repo.connectedWorkers ∧
        BestChoice (getName entry.algorithm) repo.getWorkerInfo
          (repo.connectedWorkers \ chosenBefore plan i) entry.preferredWorkerId := by
  have known : ∀ _ : Nat, ∀ w ∈ repo.connectedWorkers, (repo.getWorkerInfo w).isSome :=
    fun _ w member => Finmap.lookup_isSome.mpr (records w member)
  have byPerformance : ¬dividesEqually .byPerformance islandCount repo.connectedWorkers :=
    not_dividesEqually.mpr ⟨enough, rfl⟩
  obtain ⟨assigned, run⟩ := assignWorkers_ok .rational order getName islandCount.toNat known
    nonempty PointsTo.start
  have plan := generateWorkPlan_assigned populationSize minIslandPopSize byPerformance run
  obtain ⟨length, distinct, connected⟩ := generateWorkPlan_distinct enough plan
  refine ⟨_, plan, length, distinct, fun i entry found => ?_⟩
  rw [List.getElem?_map, Option.map_eq_some_iff] at found
  obtain ⟨worker, found, rfl⟩ := found
  obtain ⟨algorithm, choice⟩ := assignWorkers_bestChoice nonempty PointsTo.start enough run found
  rw [Nat.zero_add] at algorithm
  rw [chosenBefore, ← List.map_take, List.map_map]
  exact ⟨algorithm, (Finset.mem_sdiff.mp choice.1).1, choice⟩

/-- Two workers, of which the second has no time on record. -/
def sampleRepository : WorkerInfoRepository where
  connectedWorkers := {"v", "w"}
  workerRecords := ((∅ : UnorderedMap WorkerId WorkerInfo).insert "v"
    { totalStats := ⟨10, 100⟩, statsByAlgorithm := Finmap.singleton "de" ⟨10, 100⟩ }).insert "w" {}

theorem generateWorkPlan_bestChoice_sample :
    ∃ plan, generateWorkPlan .rational .ascending .byPerformance
        sampleRepository.getConnectedWorkers (fun _ => sampleRepository.getWorkerInfo) id 2 100
        ["de", "sade"] 20 = .ok plan ∧
      plan.length = (2 : UInt64).toNat ∧ (plan.map PlanEntry.preferredWorkerId).Nodup ∧
      ∀ i entry, plan[i]? = some entry →
        ["de", "sade"][i % ["de", "sade"].length]? = some entry.algorithm ∧
        entry.preferredWorkerId ∈ sampleRepository.connectedWorkers ∧
        BestChoice (id entry.algorithm) sampleRepository.getWorkerInfo
          (sampleRepository.connectedWorkers \ chosenBefore plan i) entry.preferredWorkerId :=
  generateWorkPlan_bestChoice sampleRepository .ascending id ["de", "sade"] 2 100 20 (by decide)
    (by decide) (by decide)

end Metasolver
