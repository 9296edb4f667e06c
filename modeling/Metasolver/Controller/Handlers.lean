import Metasolver.WorkerInfoRepository
import Mathlib.Data.String.Basic

/-!
# `distributed_controller`

The maps of the controller and the two handlers its poller calls
(`distributed_controller.cpp`).  A handler runs in `ControllerM`, a state monad in
which a fault keeps the changes made before it, as a C++ exception does.

`sent` is not a member of the class.  It collects, in order, what the handler
that is running hands to `_workersSocket` and `_islandsSocket`.

`Surroundings` holds what a handler reads from outside: the iteration orders of
the unordered containers, the clock, the outcomes of the saves that `_settings()`
makes, and the answer of `udp_registry::get_lib_as_file`.  That function turns every
error of its read into `nullopt`, but not those of the test whether the file exists.
-/

namespace Metasolver

/-- `work_allocation_record` (`distributed_controller.h:13-21`). -/
structure WorkAllocationRecord (β : Type) where
  islandId : IslandId
  workData : β
  deriving DecidableEq, Repr

/-- The data members of `distributed_controller` that its handlers use. -/
structure Controller (β : Type) where
  workerInfo : WorkerInfoRepository
  islandsWaitingForAlloc : UnorderedMap IslandId β
  freeWorkersPool : Finset WorkerId
  workAllocationMap : UnorderedMap WorkerId (WorkAllocationRecord β)
  sent : List (Sent β) := []

/-- A controller as its constructor leaves it.  The records come from the settings
    file; the connected workers are not saved in it. -/
def Controller.start {β : Type} (records : UnorderedMap WorkerId WorkerInfo) : Controller β where
  workerInfo := ⟨∅, records⟩
  islandsWaitingForAlloc := ∅
  freeWorkersPool := ∅
  workAllocationMap := ∅

/-- What a handler reads from outside the controller. -/
structure Surroundings where
  freeOrder : IterationOrder WorkerId
  waitingOrder : IterationOrder IslandId
  finishTime : TimePoint
  startTime : TimePoint
  /-- The save before `worker_joined`, `worker_left` or `worker_finished_work`. -/
  noticeSave : Except Exn Unit
  /-- The save before `worker_started_work`. -/
  startSave : Except Exn Unit
  getLibAsFile : String → Except Exn (Option Bytes)

instance : Inhabited Surroundings where
  default := ⟨.ascending, .ascending, 0, 0, .ok (), .ok (), fun _ => .ok none⟩

abbrev ControllerM (β : Type) := EStateM Fault (Controller β)

namespace Controller

variable {β Algo Pop : Type}

/-- Continue with the value, or leave the handler with the exception. -/
def orThrow {α : Type} : Except Exn α → ControllerM β α
  | .ok a => pure a
  | .error e => throw (.exception e)

/-- `*begin()`: dereferencing `end()` is undefined. -/
def deref {α : Type} : Option α → ControllerM β α
  | some a => pure a
  | none => throw .undefinedBehaviour

/-- A call on `_settings().workerInfo`.  `_settings()` saves first, and throws if the file
    cannot be written (`settings.h:48-56`). -/
def onWorkerInfo (save : Except Exn Unit)
    (call : WorkerInfoRepository → Except Exn WorkerInfoRepository) : ControllerM β Unit := do
  orThrow save
  let repo ← orThrow (call (← get).workerInfo)
  modify fun c => { c with workerInfo := repo }

def send (message : Sent β) : ControllerM β Unit :=
  modify fun c => { c with sent := c.sent ++ [message] }

/-- `_allocate_worker_to_island` (`distributed_controller.cpp:126-152`). -/
def allocateWorkerToIsland (archive : Archive β Algo Pop) (env : Surroundings)
    (islandId : IslandId) (workData : β) : ControllerM β Unit := do
  let serializedData ← orThrow (archive.workContainer workData)
  let preferredWorker := serializedData.preferredWorkerId
  -- by default the first free worker, the preferred one if it is free
  let mut workerId ← deref (env.freeOrder.begin (← get).freeWorkersPool)
  if preferredWorker ∈ (← get).freeWorkersPool then
    workerId := preferredWorker
  let chosen := workerId
  modify fun c => { c with
    freeWorkersPool := c.freeWorkersPool.erase chosen
    workAllocationMap :=
      UnorderedMap.emplace chosen ⟨islandId, workData⟩ c.workAllocationMap }
  onWorkerInfo env.startSave fun repo => repo.workerStartedWork chosen env.startTime
  send (.toWorker chosen (.allocateWork workData))

/-- `_allocate_island_work` (`distributed_controller.cpp:113-124`). -/
def allocateIslandWork (archive : Archive β Algo Pop) (env : Surroundings)
    (islandId : IslandId) (workData : β) : ControllerM β Unit := do
  if (← get).freeWorkersPool = ∅ then
    modify fun c => { c with
      islandsWaitingForAlloc := UnorderedMap.emplace islandId workData c.islandsWaitingForAlloc }
  else
    allocateWorkerToIsland archive env islandId workData

/-- `_pop_waiting_island` (`distributed_controller.cpp:154-162`). -/
def popWaitingIsland (env : Surroundings) : ControllerM β (IslandId × β) := do
  let islandRecord ← deref (UnorderedMap.begin env.waitingOrder (← get).islandsWaitingForAlloc)
  modify fun c => { c with
    islandsWaitingForAlloc := c.islandsWaitingForAlloc.erase islandRecord.1 }
  return islandRecord

/-- `_add_free_worker` (`distributed_controller.cpp:164-179`). -/
def addFreeWorker (archive : Archive β Algo Pop) (env : Surroundings) (workerId : WorkerId) :
    ControllerM β Unit := do
  modify fun c => { c with freeWorkersPool := insert workerId c.freeWorkersPool }
  if (← get).islandsWaitingForAlloc.keys ≠ ∅ then
    let (islandId, workData) ← popWaitingIsland env
    allocateWorkerToIsland archive env islandId workData

/-- `_handle_Workers_Socket_Msg` (`distributed_controller.cpp:14-86`). -/
def handleWorkersSocketMsg (archive : Archive β Algo Pop) (env : Surroundings)
    (workerId : WorkerId) : WorkerMsg β → ControllerM β Unit
  | .workerJoin => do
      -- do nothing if the worker is already saved as joined
      unless workerId ∈ (← get).freeWorkersPool do
        onWorkerInfo env.noticeSave fun repo => .ok (repo.workerJoined workerId)
        addFreeWorker archive env workerId
  | .workerLeave => do
      modify fun c => { c with freeWorkersPool := c.freeWorkersPool.erase workerId }
      onWorkerInfo env.noticeSave fun repo => .ok (repo.workerLeft workerId)
      -- a busy worker left: its work is allocated anew
      match (← get).workAllocationMap.lookup workerId with
      | none => pure ()
      | some record => do
          modify fun c => { c with workAllocationMap := c.workAllocationMap.erase workerId }
          allocateIslandWork archive env record.islandId record.workData
  | .workResults binary => do
      let workResults ← orThrow (archive.workContainer binary)
      onWorkerInfo env.noticeSave fun repo => repo.workerFinishedWork workerId
        (archive.size workResults.pop) (archive.getName workResults.algo) env.finishTime
      match (← get).workAllocationMap.lookup workerId with
      | none => throw (.exception .outOfRange)
      | some record => do
          send (.toIsland record.islandId binary)
          modify fun c => { c with workAllocationMap := c.workAllocationMap.erase workerId }
          addFreeWorker archive env workerId
  | .getDll binary => do
      let dllRequest ← orThrow (archive.getDllRequest binary)
      let file ← orThrow (env.getLibAsFile dllRequest.dllName)
      send (.toWorker workerId (.dllBinary (archive.dllBinaryContainer
        ⟨dllRequest.dllName, file⟩)))
  | .unhandled _ _ => pure ()

/-- `_handle_Islands_Socket_Msg` (`distributed_controller.cpp:88-107`). -/
def handleIslandsSocketMsg (archive : Archive β Algo Pop) (env : Surroundings)
    (islandId : IslandId) : IslandMsg β → ControllerM β Unit
  | .allocateWork binary => allocateIslandWork archive env islandId binary
  | .unhandled _ _ => pure ()

end Controller

end Metasolver
