import Metasolver.Messages

/-!
# `distributed_worker`

The main loop of a worker process and its worker thread
(`distributed_worker.cpp`).  The main loop takes messages of the controller from
`_workerSocket` and messages of the worker thread from `_threadSocket`.  The
thread talks to the main loop over two inproc peers of `_threadSocket`:
`worker_main`, which sends the results, and `worker_dll_handler`, which exists
only while a call of `get_dll_from_controller` blocks.  An exception in the thread
ends the process; the controller sees a lost connection.

`WorkerFault` covers the two ways in which the handling of `_workerThread` can go wrong:
assigning to a joinable `std::thread` terminates the process, and `join` on one
that is not joinable throws.  `ThreadOk` relates the thread to the results that
wait in `_threadSocket`; it is kept by every step, so `join` never throws.
-/

namespace Metasolver

/-- `_workerThread`, by what the thread is doing. -/
inductive WorkerThread (β : Type) where
  /-- Never started, or joined. -/
  | notJoinable
  | running (workData : β)
  /-- Blocked in `get_dll_from_controller`. -/
  | awaitingDll (workData : β)
  /-- The results have been sent to the main loop, `join` has not been called. -/
  | finished
  deriving DecidableEq, Repr

/-- What the worker thread sends to `_threadSocket`, and the main loop passes on to
    the controller under the same message type. -/
inductive ThreadMsg (β : Type) where
  | workResults (binary : β)
  | getDll (binary : β)
  deriving DecidableEq, Repr

/-- The message as the controller receives it. -/
def ThreadMsg.toController {β : Type} : ThreadMsg β → WorkerMsg β
  | .workResults binary => .workResults binary
  | .getDll binary => .getDll binary

inductive WorkerFault where
  /-- `std::terminate`, from the assignment to a joinable thread. -/
  | terminate
  /-- `std::system_error`, from `join`. -/
  | systemError
  deriving DecidableEq, Repr

/-- A worker process.  `threadSocket` holds what the main loop has not received
    from the thread, `workerSocket` what it has sent and the controller's side has
    not taken over.  After a fault the main loop is gone. -/
structure Worker (β : Type) where
  workerThread : WorkerThread β := .notJoinable
  threadSocket : List (ThreadMsg β) := []
  workerSocket : List (ThreadMsg β) := []
  fault : Option WorkerFault := none
  deriving DecidableEq, Repr

/-- `std::thread::joinable`. -/
def WorkerThread.joinable {β : Type} : WorkerThread β → Bool
  | .notJoinable => false
  | _ => true

namespace Worker

variable {β : Type}

/-- `_start_worker_thread` (`distributed_worker.cpp:205-232`): the new thread is
    assigned to `_workerThread`. -/
def startWorkerThread (v : Worker β) (workData : β) : Except WorkerFault (Worker β) :=
  if v.workerThread.joinable then .error .terminate
  else .ok { v with workerThread := .running workData }

/-- `_workerThread.join()`.  A thread that has sent its results has nothing left to
    do but to end. -/
def joinWorkerThread (v : Worker β) : Except WorkerFault (Worker β) :=
  if v.workerThread.joinable then .ok { v with workerThread := .notJoinable }
  else .error .systemError

/-- `_threadSocket.send("worker_dll_handler", …)`: the blocked thread goes on; a
    router drops what it cannot deliver. -/
def sendToDllHandler (v : Worker β) : Worker β :=
  match v.workerThread with
  | .awaitingDll workData => { v with workerThread := .running workData }
  | _ => v

/-- `_handle_Worker_Socket_Msg` (`distributed_worker.cpp:18-42`). -/
def handleWorkerSocketMsg (v : Worker β) : ToWorkerMsg β → Except WorkerFault (Worker β)
  | .allocateWork binary => v.startWorkerThread binary
  | .dllBinary _ => .ok v.sendToDllHandler

/-- `_handle_Thread_Socket_Msg` (`distributed_worker.cpp:44-66`). -/
def handleThreadSocketMsg (v : Worker β) : ThreadMsg β → Except WorkerFault (Worker β)
  | .workResults binary => do
      let v ← v.joinWorkerThread
      return { v with workerSocket := v.workerSocket ++ [.workResults binary] }
  | .getDll binary => return { v with workerSocket := v.workerSocket ++ [.getDll binary] }

/-- The main loop after a handler. -/
def afterHandler (v : Worker β) : Except WorkerFault (Worker β) → Worker β
  | .ok v' => v'
  | .error f => { v with fault := some f }

/-- The main loop handles a message of the controller. -/
def receive (v : Worker β) (msg : ToWorkerMsg β) : Worker β :=
  v.afterHandler (v.handleWorkerSocketMsg msg)

/-- The main loop handles the oldest message of the thread. -/
def threadSocketReceives (v : Worker β) : Option (Worker β) :=
  match v.fault, v.threadSocket with
  | none, msg :: rest =>
      let v := { v with threadSocket := rest }
      some (v.afterHandler (v.handleThreadSocketMsg msg))
  | _, _ => none

/-- The thread evolves its population and sends the results. -/
def threadFinishes (v : Worker β) (evolve : β → β) : Option (Worker β) :=
  match v.fault, v.workerThread with
  | none, .running workData => some { v with
      workerThread := .finished
      threadSocket := v.threadSocket ++ [.workResults (evolve workData)] }
  | _, _ => none

/-- The thread calls `get_dll_from_controller`
    (`distributed_worker.cpp:334-359`). -/
def threadRequestsDll (v : Worker β) (request : β) : Option (Worker β) :=
  match v.fault, v.workerThread with
  | none, .running workData => some { v with
      workerThread := .awaitingDll workData
      threadSocket := v.threadSocket ++ [.getDll request] }
  | _, _ => none

/-! ## The thread and its results -/

def isResults : ThreadMsg β → Bool
  | .workResults _ => true
  | .getDll _ => false

/-- The results that `_threadSocket` holds from this thread. -/
def unjoined : WorkerThread β → Nat
  | .finished => 1
  | _ => 0

/-- There are results in `_threadSocket` exactly while a finished thread waits to
    be joined, and they are its own. -/
def ThreadOk (v : Worker β) : Prop := v.threadSocket.countP isResults = unjoined v.workerThread

variable {v v' : Worker β} {evolve : β → β} {request : β} {msg : ToWorkerMsg β}

theorem threadOk_start : ThreadOk ({} : Worker β) := rfl

/-- A message of the controller finds no earlier thread, if it brings work. -/
theorem receive_allocateWork (workData : β) (ok : v.ThreadOk)
    (idle : v.workerThread.joinable = false) :
    (v.receive (.allocateWork workData)).ThreadOk ∧
      v.receive (.allocateWork workData) = { v with workerThread := .running workData } := by
  have started : v.receive (.allocateWork workData) =
      { v with workerThread := .running workData } := by
    simp [receive, handleWorkerSocketMsg, startWorkerThread, afterHandler, idle]
  rw [started]
  refine ⟨?_, rfl⟩
  unfold ThreadOk at ok ⊢
  rw [ok]
  cases thread : v.workerThread with
  | notJoinable => rfl
  | running d => rfl
  | awaitingDll d => rfl
  | finished => rw [thread] at idle; cases idle

/-! What the functions on the thread do, each said once. -/

theorem sendToDllHandler_cases :
    (∃ workData, v.workerThread = .awaitingDll workData ∧
      v.sendToDllHandler = { v with workerThread := .running workData }) ∨
    v.sendToDllHandler = v := by
  unfold sendToDllHandler
  split
  case h_1 workData thread => exact Or.inl ⟨workData, thread, rfl⟩
  case h_2 => exact Or.inr rfl

theorem threadFinishes_cases (h : v.threadFinishes evolve = some v') :
    ∃ workData, v.fault = none ∧ v.workerThread = .running workData ∧
      v' = { v with
        workerThread := .finished
        threadSocket := v.threadSocket ++ [.workResults (evolve workData)] } := by
  unfold threadFinishes at h
  split at h
  case h_1 workData alive thread => exact ⟨workData, alive, thread, (Option.some.inj h).symm⟩
  case h_2 => cases h

theorem threadRequestsDll_cases (h : v.threadRequestsDll request = some v') :
    ∃ workData, v.fault = none ∧ v.workerThread = .running workData ∧
      v' = { v with
        workerThread := .awaitingDll workData
        threadSocket := v.threadSocket ++ [.getDll request] } := by
  unfold threadRequestsDll at h
  split at h
  case h_1 workData alive thread => exact ⟨workData, alive, thread, (Option.some.inj h).symm⟩
  case h_2 => cases h

theorem ThreadOk.sendToDllHandler (ok : v.ThreadOk) : v.sendToDllHandler.ThreadOk := by
  rcases @sendToDllHandler_cases _ v with ⟨workData, thread, sent⟩ | same
  · have noResults : v.threadSocket.countP isResults = 0 := by
      unfold ThreadOk at ok
      rw [ok, thread]
      rfl
    rw [sent]
    exact noResults
  · rw [same]
    exact ok

@[simp] theorem fault_sendToDllHandler : v.sendToDllHandler.fault = v.fault := by
  rcases @sendToDllHandler_cases _ v with ⟨workData, thread, sent⟩ | same
  · rw [sent]
  · rw [same]

/-- Work that finds an earlier thread terminates the process, and no other message of
    the controller is a fault. -/
theorem ThreadOk.receive (ok : v.ThreadOk) (msg : ToWorkerMsg β) :
    (v.receive msg).ThreadOk ∧
      ((v.receive msg).fault = v.fault ∨ (v.receive msg).fault = some .terminate) := by
  cases msg with
  | allocateWork workData =>
      by_cases idle : v.workerThread.joinable = false
      · obtain ⟨ok', started⟩ := receive_allocateWork workData ok idle
        refine ⟨ok', Or.inl ?_⟩
        rw [started]
      · have terminated : v.receive (.allocateWork workData) =
            { v with fault := some .terminate } := by
          rw [Bool.not_eq_false] at idle
          simp [Worker.receive, handleWorkerSocketMsg, startWorkerThread, afterHandler, idle]
        rw [terminated]
        exact ⟨ok, Or.inr rfl⟩
  | dllBinary binary => exact ⟨ok.sendToDllHandler, Or.inl fault_sendToDllHandler⟩

theorem ThreadOk.threadFinishes (ok : v.ThreadOk) (h : v.threadFinishes evolve = some v') :
    v'.ThreadOk := by
  obtain ⟨workData, -, thread, rfl⟩ := threadFinishes_cases h
  unfold ThreadOk at ok ⊢
  rw [List.countP_append, ok, thread]
  rfl

theorem ThreadOk.threadRequestsDll (ok : v.ThreadOk)
    (h : v.threadRequestsDll request = some v') : v'.ThreadOk := by
  obtain ⟨workData, -, thread, rfl⟩ := threadRequestsDll_cases h
  unfold ThreadOk at ok ⊢
  rw [List.countP_append, ok, thread]
  rfl

/-- What the main loop does with the oldest message of the thread.  Results are
    only there while the thread is joinable, so `join` returns. -/
inductive ThreadSocketStep (v : Worker β) : Worker β → Prop
  | results (binary : β) (rest : List (ThreadMsg β))
      (oldest : v.threadSocket = .workResults binary :: rest)
      (thread : v.workerThread = .finished) :
      ThreadSocketStep v { v with
        workerThread := .notJoinable
        threadSocket := rest
        workerSocket := v.workerSocket ++ [.workResults binary] }
  | getDll (binary : β) (rest : List (ThreadMsg β))
      (oldest : v.threadSocket = .getDll binary :: rest) :
      ThreadSocketStep v { v with
        threadSocket := rest
        workerSocket := v.workerSocket ++ [.getDll binary] }

/-- Results in `_threadSocket` are those of a finished thread. -/
theorem ThreadOk.finished {binary : β} {rest : List (ThreadMsg β)} (ok : v.ThreadOk)
    (oldest : v.threadSocket = .workResults binary :: rest) : v.workerThread = .finished := by
  unfold ThreadOk at ok
  rw [oldest, List.countP_cons_of_pos rfl] at ok
  cases which : v.workerThread with
  | finished => rfl
  | _ => rw [which] at ok; cases ok

theorem ThreadOk.joinable {binary : β} {rest : List (ThreadMsg β)} (ok : v.ThreadOk)
    (oldest : v.threadSocket = .workResults binary :: rest) :
    v.workerThread.joinable = true := by
  rw [ok.finished oldest]
  rfl

theorem ThreadSocketStep.fault_eq (h : ThreadSocketStep v v') : v'.fault = v.fault := by
  cases h <;> rfl

theorem threadSocketReceives_cases (ok : v.ThreadOk) (h : v.threadSocketReceives = some v') :
    ThreadSocketStep v v' ∧ v'.ThreadOk := by
  unfold threadSocketReceives at h
  split at h
  case h_1 m rest alive oldest =>
    simp only [Option.some.injEq] at h
    subst h
    cases m with
    | workResults binary =>
        have thread := ok.finished oldest
        have counted : rest.countP isResults + 1 = unjoined v.workerThread := by
          rw [← ok, oldest, List.countP_cons_of_pos rfl]
        have joined : afterHandler { v with threadSocket := rest }
            (handleThreadSocketMsg { v with threadSocket := rest } (.workResults binary)) =
            { v with
              workerThread := .notJoinable
              threadSocket := rest
              workerSocket := v.workerSocket ++ [.workResults binary] } := by
          simp [handleThreadSocketMsg, joinWorkerThread, thread, WorkerThread.joinable]
          rfl
        rw [joined]
        refine ⟨.results binary rest oldest thread, ?_⟩
        rw [thread] at counted
        have noneLeft : rest.countP isResults = 0 := by
          simpa [unjoined] using counted
        exact noneLeft
    | getDll binary =>
        refine ⟨.getDll binary rest oldest, ?_⟩
        have counted : rest.countP isResults = unjoined v.workerThread := by
          rw [← ok, oldest, List.countP_cons_of_neg Bool.false_ne_true]
        exact counted
  case h_2 => cases h

end Worker

end Metasolver
