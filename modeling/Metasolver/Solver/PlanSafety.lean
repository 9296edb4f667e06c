import Metasolver.Solver.Assignment
import Metasolver.Solver.Completion
import Metasolver.Controller.RepositoryCalls

/-!
# Planning while workers come and go

`evolve` counts the workers, takes the larger of the count and the expected count, and
makes a plan for that many islands (`distributed_solver.cpp:171-206`).  The plan is made
from the workers that are connected by then, with records read later still.  None of
this is checked, and two things can go wrong: there is no island to divide the
population among, or there is no algorithm to give to an island.  A worker that leaves
does no harm, since its record stays.

Each call on the repository is atomic, and the server thread goes on between two of them.
-/

namespace Metasolver

open WorkerInfoRepository

variable {D Algo : Type}

/-- The repository at each of the calls that `evolve` makes on it. -/
structure Readings where
  /-- The records the controller starts with. -/
  saved : UnorderedMap WorkerId WorkerInfo
  /-- At `get_worker_count`. -/
  atCount : WorkerInfoRepository
  /-- At `get_connected_workers`. -/
  atConnected : WorkerInfoRepository
  /-- At `get_worker_info` of a worker in the search for an island. -/
  atInfo : Nat → WorkerId → WorkerInfoRepository
  count_later : Later ⟨∅, saved⟩ atCount
  connected_later : atCount.Later atConnected
  info_later : ∀ i w, atConnected.Later (atInfo i w)
  /-- The size of the set is a `size_t`. -/
  countable : atCount.connectedWorkers.card < 2 ^ 64

/-- The number of islands: at least the expected one. -/
def optimalIslandCount (readings : Readings) (expectedWorkerCount : UInt64) : UInt64 :=
  max (UInt64.ofNat readings.atCount.getWorkerCount) expectedWorkerCount

/-- `evolve` up to its plan (`distributed_solver.cpp:171-189`).  The status is read once for
    each comparison. -/
def planEvolution (arith : DoubleArith D) (order : IterationOrder WorkerId)
    (firstStatus secondStatus : EvolveStatus) (strategy : LoadBalancingStrategy)
    (expectedWorkerCount : UInt64) (readings : Readings) (getName : Algo → String)
    (algorithms : List Algo) (populationSize minIslandPopSize : UInt64) :
    Except Fault (List (PlanEntry Algo)) :=
  if firstStatus = .busy ∨ secondStatus = .busyError then
    .error (.exception (.runtimeError
      "Cannot start a new evolution while the previous one is still running."))
  else
    generateWorkPlan arith order strategy readings.atConnected.getConnectedWorkers
      (fun i w => (readings.atInfo i w).getWorkerInfo w) getName
      (optimalIslandCount readings expectedWorkerCount) populationSize algorithms minIslandPopSize

/-- `workPlan.at(i)` for each island (`distributed_solver.cpp:191-193`). -/
def readEntries (workPlan : List (PlanEntry Algo)) (islandCount : Nat) :
    Except Fault (List (PlanEntry Algo)) :=
  (List.range islandCount).mapM fun i =>
    match workPlan[i]? with
    | none => .error (.exception .outOfRange)
    | some entry => .ok entry

/-- Planning throws, or the entries that are read are those of the plan. -/
def PlansSafely (islandCount : UInt64) (planning : Except Fault (List (PlanEntry Algo))) : Prop :=
  (∃ e, planning = .error (.exception e)) ∨
    ∃ plan, planning = .ok plan ∧ plan.length = islandCount.toNat ∧
      readEntries plan islandCount.toNat = .ok plan

/-- No worker was counted and none is expected. -/
def NoIslands (readings : Readings) (expectedWorkerCount : UInt64) : Prop :=
  readings.atCount.connectedWorkers = ∅ ∧ expectedWorkerCount = 0

instance (readings : Readings) (expectedWorkerCount : UInt64) :
    Decidable (NoIslands readings expectedWorkerCount) :=
  inferInstanceAs (Decidable (_ ∧ _))

/-! ## What the repository gives -/

namespace Readings

variable (readings : Readings)

/-- Every worker of the set has a record at each later reading, also one that has left. -/
theorem records (i : Nat) (w : WorkerId)
    (connected : w ∈ readings.atConnected.getConnectedWorkers) :
    ((readings.atInfo i w).getWorkerInfo w).isSome := by
  have recorded : Recorded readings.atConnected :=
    readings.connected_later.recorded (readings.count_later.recorded (recorded_start _))
  have kept := (readings.info_later i w).keeps_record (recorded w connected)
  exact Finmap.lookup_isSome.mpr kept

theorem optimalIslandCount_eq_zero {expectedWorkerCount : UInt64} :
    optimalIslandCount readings expectedWorkerCount = 0 ↔
      NoIslands readings expectedWorkerCount := by
  have count : (UInt64.ofNat readings.atCount.getWorkerCount).toNat =
      readings.atCount.connectedWorkers.card := UInt64.toNat_ofNat_of_lt' readings.countable
  rw [← UInt64.toNat_inj, optimalIslandCount, UInt64.toNat_max, count, NoIslands,
    ← Finset.card_eq_zero, ← UInt64.toNat_inj (a := expectedWorkerCount)]
  change max _ _ = 0 ↔ _ ∧ _ = 0
  omega

/-- The readings of a server that handles messages before each of the calls. -/
def ofRuns {β A Pop : Type} {archive : Archive β A Pop} (saved : UnorderedMap WorkerId WorkerInfo)
    (counted connected : Session β) (found : Nat → WorkerId → Session β)
    (toCount : ∃ es, Exec.exec (Session.step archive) (Session.start saved) es = some counted)
    (toConnected : ∃ es, Exec.exec (Session.step archive) counted es = some connected)
    (toInfo : ∀ i w, ∃ es, Exec.exec (Session.step archive) connected es = some (found i w))
    (countable : counted.repository.connectedWorkers.card < 2 ^ 64) : Readings where
  saved := saved
  atCount := counted.repository
  atConnected := connected.repository
  atInfo i w := (found i w).repository
  count_later := toCount.elim fun _ => Session.later_exec
  connected_later := toConnected.elim fun _ => Session.later_exec
  info_later i w := (toInfo i w).elim fun _ => Session.later_exec
  countable := countable

end Readings

/-! ## What the plan comes to -/

section

variable {arith : DoubleArith D} {order : IterationOrder WorkerId}
  {strategy : LoadBalancingStrategy} {connectedWorkers : Finset WorkerId}
  {getWorkerInfo : Nat → WorkerId → Option WorkerInfo} {getName : Algo → String}
  {islandCount populationSize minIslandPopSize : UInt64} {algorithms : List Algo}

/-- With an island and an algorithm, there is a plan with an entry for each island. -/
theorem generateWorkPlan_length
    (records : ∀ i, ∀ w ∈ connectedWorkers, (getWorkerInfo i w).isSome)
    (some_ : islandCount ≠ 0) (nonempty : algorithms ≠ []) :
    ∃ plan, generateWorkPlan arith order strategy connectedWorkers getWorkerInfo getName
        islandCount populationSize algorithms minIslandPopSize = .ok plan ∧
      plan.length = islandCount.toNat := by
  by_cases equally : dividesEqually strategy islandCount connectedWorkers
  · obtain ⟨chosen, run, length⟩ :=
      chooseAlgorithms_turn islandCount.toNat nonempty PointsTo.start
    rw [generateWorkPlan, if_pos equally, if_neg some_, run]
    exact ⟨_, rfl, by rw [List.length_map, length]⟩
  · obtain ⟨assigned, run⟩ := assignWorkers_ok arith order getName islandCount.toNat records
      nonempty PointsTo.start
    refine ⟨_, generateWorkPlan_assigned populationSize minIslandPopSize equally run, ?_⟩
    rw [List.length_map, (assignWorkers_distinct (not_dividesEqually.mp equally).1 run).1]

/-- No island needs no worker. -/
theorem generateWorkPlan_noIslands :
    generateWorkPlan arith order .byPerformance connectedWorkers getWorkerInfo getName 0
      populationSize algorithms minIslandPopSize = .ok [] := by
  have unequally : ¬dividesEqually .byPerformance 0 connectedWorkers :=
    not_dividesEqually.mpr ⟨Nat.zero_le _, rfl⟩
  rw [generateWorkPlan, if_neg unequally]
  rfl

/-- Equal division among no islands divides by zero. -/
theorem generateWorkPlan_divides :
    generateWorkPlan arith order .allIslandsEqual connectedWorkers getWorkerInfo getName 0
      populationSize algorithms minIslandPopSize = .error .undefinedBehaviour := by
  have equally : dividesEqually .allIslandsEqual 0 connectedWorkers := Or.inr rfl
  rw [generateWorkPlan, if_pos equally, if_pos rfl]

/-- Without an algorithm, the first island dereferences the end of the list. -/
theorem generateWorkPlan_noAlgorithm (some_ : islandCount ≠ 0) :
    generateWorkPlan arith order strategy connectedWorkers getWorkerInfo getName islandCount
      populationSize ([] : List Algo) minIslandPopSize = .error .undefinedBehaviour := by
  obtain ⟨islands, more⟩ : ∃ islands, islandCount.toNat = islands + 1 :=
    Nat.exists_eq_succ_of_ne_zero fun zero => some_ (UInt64.toNat_inj.mp zero)
  unfold generateWorkPlan
  rw [if_neg some_, more]
  split_ifs <;> rfl

end

/-- Reading as many entries as there are yields the plan. -/
theorem readEntries_length (workPlan : List (PlanEntry Algo)) :
    readEntries workPlan workPlan.length = .ok workPlan := by
  apply Except.mapM_of_forall₂
  rw [List.forall₂_iff_get]
  refine ⟨List.length_range, fun i inRange inPlan => ?_⟩
  rw [List.get_eq_getElem, List.getElem_range, List.getElem?_eq_getElem inPlan]
  rfl

variable {planning : Except Fault (List (PlanEntry Algo))} {islandCount : UInt64}

theorem plansSafely_of_length {plan : List (PlanEntry Algo)} (made : planning = .ok plan)
    (length : plan.length = islandCount.toNat) : PlansSafely islandCount planning := by
  refine Or.inr ⟨plan, made, length, ?_⟩
  rw [← length]
  exact readEntries_length plan

theorem not_plansSafely (undefined : planning = .error .undefinedBehaviour) :
    ¬PlansSafely islandCount planning := by
  rw [undefined]
  intro safe
  rcases safe with ⟨e, threw⟩ | ⟨plan, made, -⟩
  · cases threw
  · cases made

/-- Planning is safe if the call is refused, and otherwise if there are islands with
    algorithms for them, or no islands and nothing to divide. -/
theorem planEvolution_safe_iff (arith : DoubleArith D) (order : IterationOrder WorkerId)
    (firstStatus secondStatus : EvolveStatus) (strategy : LoadBalancingStrategy)
    (expectedWorkerCount : UInt64) (readings : Readings) (getName : Algo → String)
    (algorithms : List Algo) (populationSize minIslandPopSize : UInt64) :
    PlansSafely (optimalIslandCount readings expectedWorkerCount)
        (planEvolution arith order firstStatus secondStatus strategy expectedWorkerCount readings
          getName algorithms populationSize minIslandPopSize) ↔
      (firstStatus = .busy ∨ secondStatus = .busyError) ∨
      if NoIslands readings expectedWorkerCount then strategy = .byPerformance
      else algorithms ≠ [] := by
  by_cases refused : firstStatus = .busy ∨ secondStatus = .busyError
  · rw [planEvolution, if_pos refused]
    exact iff_of_true (Or.inl ⟨_, rfl⟩) (Or.inl refused)
  · rw [planEvolution, if_neg refused, or_iff_right refused]
    by_cases none_ : NoIslands readings expectedWorkerCount
    · have zero := readings.optimalIslandCount_eq_zero.mpr none_
      rw [if_pos none_, zero]
      cases strategy with
      | allIslandsEqual =>
          exact iff_of_false (not_plansSafely generateWorkPlan_divides) (by decide)
      | byPerformance =>
          exact iff_of_true (plansSafely_of_length generateWorkPlan_noIslands rfl) rfl
    · have some_ : optimalIslandCount readings expectedWorkerCount ≠ 0 :=
        fun zero => none_ (readings.optimalIslandCount_eq_zero.mp zero)
      rw [if_neg none_]
      by_cases empty : algorithms = []
      · subst empty
        exact iff_of_false (not_plansSafely (generateWorkPlan_noAlgorithm some_))
          (fun nonempty => nonempty rfl)
      · refine iff_of_true ?_ empty
        obtain ⟨plan, made, length⟩ := generateWorkPlan_length readings.records some_ empty
        exact plansSafely_of_length made length

/-- No message arrives while `evolve` plans. -/
def noWorkers : Readings :=
  @Readings.ofRuns _ _ _ Archive.plain ∅ (Session.start ∅) (Session.start ∅)
    (fun _ _ => Session.start ∅) ⟨[], rfl⟩ ⟨[], rfl⟩ (fun _ _ => ⟨[], rfl⟩) (by decide)

/-- Equal division with no worker expected, and one expected worker without an algorithm. -/
theorem planEvolution_unsafe :
    ¬PlansSafely (optimalIslandCount noWorkers 0)
        (planEvolution .rational .ascending .idle .idle .allIslandsEqual 0 noWorkers id ["de"]
          100 80) ∧
      ¬PlansSafely (optimalIslandCount noWorkers 1)
        (planEvolution .rational .ascending .idle .idle .byPerformance 1 noWorkers id
          ([] : List String) 100 80) :=
  ⟨not_plansSafely rfl, not_plansSafely rfl⟩

end Metasolver
