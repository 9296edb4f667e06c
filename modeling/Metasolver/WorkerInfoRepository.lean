import Metasolver.Lib.UnorderedMap
import Metasolver.Messages

/-!
# `worker_info_repository`

The statistics of all workers the controller has ever seen and the set of workers
that are connected now (`worker_info_repository.cpp`).  Counters are `uint64_t`
and wrap; a clock reading is a count of nanoseconds that need not increase, since
`high_resolution_clock` is not required to be steady.

The two functions that throw test for the record before they write, so they are
written as `Except`: a call that throws changes nothing.
-/

namespace Metasolver

/-- `std::chrono::high_resolution_clock::time_point`, in nanoseconds. -/
abbrev TimePoint := Int

/-- `work_stats` (`worker_info_repository.h:12-39`). -/
structure WorkStats where
  workTime : UInt64 := 0
  processedPopulation : UInt64 := 0
  deriving DecidableEq, Repr

/-- `worker_info` (`worker_info_repository.h:41-62`). -/
structure WorkerInfo where
  totalStats : WorkStats := {}
  statsByAlgorithm : UnorderedMap String WorkStats := ∅
  lastWorkStartTime : TimePoint := 0
  deriving DecidableEq

/-- The data members of `worker_info_repository`. -/
structure WorkerInfoRepository where
  connectedWorkers : Finset WorkerId
  workerRecords : UnorderedMap WorkerId WorkerInfo
  deriving DecidableEq

/-- `wInfo.….workTime += workTime; wInfo.….processedPopulation += …`: the signed
    duration is converted to `uint64_t`. -/
def WorkStats.add (stats : WorkStats) (workTime : Int) (processedPopulation : Nat) : WorkStats where
  workTime := stats.workTime + UInt64.ofInt workTime
  processedPopulation := stats.processedPopulation + UInt64.ofNat processedPopulation

namespace WorkerInfoRepository

/-- `worker_joined` (`worker_info_repository.cpp:3-16`). -/
def workerJoined (repo : WorkerInfoRepository) (workerID : WorkerId) (info : WorkerInfo := {}) :
    WorkerInfoRepository where
  workerRecords := UnorderedMap.emplace workerID info repo.workerRecords
  connectedWorkers := insert workerID repo.connectedWorkers

/-- `worker_left` (`worker_info_repository.cpp:18-27`). -/
def workerLeft (repo : WorkerInfoRepository) (workerID : WorkerId) : WorkerInfoRepository :=
  { repo with connectedWorkers := repo.connectedWorkers.erase workerID }

/-- Both throwing functions look for the record, throw if there is none, and
    otherwise change it in place. -/
def modifyRecord (repo : WorkerInfoRepository) (function : String) (workerID : WorkerId)
    (change : WorkerInfo → WorkerInfo) : Except Exn WorkerInfoRepository :=
  match repo.workerRecords.lookup workerID with
  | none => .error (.runtimeError ("Cannot perform " ++ function ++ "(), worker " ++ workerID ++
      " is not in _workerRecords."))
  | some wInfo =>
      .ok { repo with workerRecords := repo.workerRecords.insert workerID (change wInfo) }

/-- `worker_started_work` (`worker_info_repository.cpp:29-41`); `now` is the clock. -/
def workerStartedWork (repo : WorkerInfoRepository) (workerID : WorkerId) (now : TimePoint) :
    Except Exn WorkerInfoRepository :=
  repo.modifyRecord "worker_started_work" workerID fun wInfo =>
    { wInfo with lastWorkStartTime := now }

/-- The record after a finished job.  `duration_cast` to milliseconds truncates
    towards zero, and `statsByAlgorithm[algoName]` creates a missing entry. -/
def finished (wInfo : WorkerInfo) (processedPopulation : Nat) (algoName : String)
    (endTime : TimePoint) : WorkerInfo :=
  let workTime := (endTime - wInfo.lastWorkStartTime).tdiv 1000000
  let algoStats := (wInfo.statsByAlgorithm.lookup algoName).getD {}
  { wInfo with
    totalStats := wInfo.totalStats.add workTime processedPopulation
    statsByAlgorithm :=
      wInfo.statsByAlgorithm.insert algoName (algoStats.add workTime processedPopulation) }

/-- `worker_finished_work` (`worker_info_repository.cpp:43-65`); `now` is the clock. -/
def workerFinishedWork (repo : WorkerInfoRepository) (workerID : WorkerId)
    (processedPopulation : Nat) (algoName : String) (now : TimePoint) :
    Except Exn WorkerInfoRepository :=
  repo.modifyRecord "worker_finished_work" workerID fun wInfo =>
    finished wInfo processedPopulation algoName now

/-- `get_worker_info` (`worker_info_repository.cpp:67-81`). -/
def getWorkerInfo (repo : WorkerInfoRepository) (workerID : WorkerId) : Option WorkerInfo :=
  repo.workerRecords.lookup workerID

/-- `get_connected_workers` (`worker_info_repository.cpp:83-88`). -/
def getConnectedWorkers (repo : WorkerInfoRepository) : Finset WorkerId :=
  repo.connectedWorkers

/-- `get_worker_count` (`worker_info_repository.cpp:90-95`). -/
def getWorkerCount (repo : WorkerInfoRepository) : Nat :=
  repo.connectedWorkers.card

variable {repo repo' : WorkerInfoRepository} {w v : WorkerId} {function : String}
  {change : WorkerInfo → WorkerInfo}

@[simp] theorem connectedWorkers_workerJoined (info : WorkerInfo) :
    (repo.workerJoined w info).connectedWorkers = insert w repo.connectedWorkers := rfl

@[simp] theorem connectedWorkers_workerLeft :
    (repo.workerLeft w).connectedWorkers = repo.connectedWorkers.erase w := rfl

@[simp] theorem workerRecords_workerLeft :
    (repo.workerLeft w).workerRecords = repo.workerRecords := rfl

theorem mem_workerRecords_workerJoined {info : WorkerInfo} :
    v ∈ (repo.workerJoined w info).workerRecords ↔ v = w ∨ v ∈ repo.workerRecords :=
  UnorderedMap.mem_emplace

/-- A call that does not throw has found the record and changed it in place. -/
theorem modifyRecord_eq (h : repo.modifyRecord function w change = .ok repo') :
    ∃ wInfo, repo.workerRecords.lookup w = some wInfo ∧
      repo' = { repo with workerRecords := repo.workerRecords.insert w (change wInfo) } := by
  unfold modifyRecord at h
  cases found : repo.workerRecords.lookup w with
  | none => simp [found] at h
  | some wInfo =>
      simp only [found, Except.ok.injEq] at h
      exact ⟨wInfo, rfl, h.symm⟩

/-- It keeps the connected workers and the set of workers that have a record. -/
theorem modifyRecord_ok (h : repo.modifyRecord function w change = .ok repo') :
    w ∈ repo.workerRecords ∧ repo'.connectedWorkers = repo.connectedWorkers ∧
      ∀ v, v ∈ repo'.workerRecords ↔ v ∈ repo.workerRecords := by
  obtain ⟨wInfo, found, rfl⟩ := modifyRecord_eq h
  have present := Finmap.mem_of_lookup_eq_some found
  refine ⟨present, rfl, fun v => ?_⟩
  rw [Finmap.mem_insert]
  constructor
  · rintro (rfl | h)
    · exact present
    · exact h
  · exact Or.inr

/-- It succeeds for every worker that has a record. -/
theorem modifyRecord_of_mem (h : w ∈ repo.workerRecords) :
    ∃ repo', repo.modifyRecord function w change = .ok repo' := by
  obtain ⟨wInfo, found⟩ := Finmap.mem_iff.mp h
  rw [modifyRecord, found]
  exact ⟨_, rfl⟩

end WorkerInfoRepository

end Metasolver
