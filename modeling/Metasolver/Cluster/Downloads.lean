import Mathlib.Logic.Function.Basic
import Metasolver.Controller.Session
import Metasolver.Worker

/-!
# Downloads of libraries

A worker process gets a library that it does not have from the controller.  The call of
`get_dll_from_controller` in one of its threads, the main loop, which passes the request and
the reply on, and the controller are separate parties with queues between them
(`distributed_worker.cpp:18-66`, `334-359`, `distributed_controller.cpp:69-81`).

The name in the reply is not looked at, and the inproc socket of every call has the same
routing id.  What keeps two calls apart is `_registryMutex`: each function of
`udp_registry` that calls the provider holds it.  Here the provider is
`get_dll_from_controller`, as the worker registers it.

Connections are stable.  Each queue is in order; the two inproc peers of `_threadSocket` have
a queue each, so what they send may interleave in any way.
-/

namespace Metasolver

/-- The archive functions that a worker applies to the messages about libraries. -/
structure DllArchive (β : Type) where
  /-- `serialize_object<get_dll_request>`. -/
  getDllRequest : GetDllRequest → β
  /-- `vector_deserialize<dll_binary_container>`. -/
  dllBinaryContainer : β → Except Exn DllBinaryContainer

/-- What has been serialized by one side is deserialized by the other. -/
structure RoundTrips {β Algo Pop : Type} (archive : Archive β Algo Pop) (dll : DllArchive β) :
    Prop where
  request : ∀ r, archive.getDllRequest (dll.getDllRequest r) = .ok r
  reply : ∀ c, dll.dllBinaryContainer (archive.dllBinaryContainer c) = .ok c

/-- The archive that stores objects as they are, on the side of the worker. -/
def DllArchive.plain : DllArchive (PlainPayload String Nat) where
  getDllRequest := .request
  dllBinaryContainer
    | .reply container => .ok container
    | _ => .error .archiveException

theorem RoundTrips.plain : RoundTrips Archive.plain DllArchive.plain := ⟨fun _ => rfl, fun _ => rfl⟩

/-- A thread of a worker process. -/
abbrev ThreadId := Nat

/-- A call of `get_dll_from_controller` that has sent its request: the thread, the argument,
    and what has arrived at its socket. -/
structure DllCall (β : Type) where
  thread : ThreadId
  libName : String
  inbox : List (ToWorkerMsg β)

/-- A worker process.  `worker.workerSocket` is the queue to the controller. -/
structure WorkerProcess (β : Type) where
  worker : Worker β := {}
  /-- The thread that owns `_registryMutex`, and how often it has locked it again. -/
  registryMutex : Option (ThreadId × Nat) := none
  /-- The sockets with the routing id `worker_dll_handler`, in the order of their
      connection. -/
  dllCalls : List (DllCall β) := []
  /-- Results from `worker_main` that the main loop has not received. -/
  workerMain : List β := []
  /-- Requests from `worker_dll_handler` that the main loop has not received. -/
  workerDllHandler : List β := []
  /-- Messages of the controller that the main loop has not received. -/
  inbound : List (ToWorkerMsg β) := []
  /-- The arguments of all calls of `get_dll_from_controller`, oldest first. -/
  asked : List String := []
  /-- The calls that have returned or thrown, in that order. -/
  returned : List (String × Except Exn (Option Bytes)) := []

/-- What a thread of a worker process does. -/
inductive ThreadEvent (β : Type) where
  /-- A function of `udp_registry` locks the mutex. -/
  | lock (thread : ThreadId)
  /-- It unlocks it. -/
  | unlock (thread : ThreadId)
  /-- It calls the provider. -/
  | getDll (thread : ThreadId) (libName : String)
  /-- The provider receives a message. -/
  | receive (thread : ThreadId)
  /-- A thread sends results over `worker_main`. -/
  | results (binary : β)

/-- What the main loop of a worker process takes a message from. -/
inductive MainEvent where
  | workerMain
  | workerDllHandler
  | controller

namespace WorkerProcess

variable {β : Type}

/-- `std::recursive_mutex::lock`, which waits while another thread owns the mutex. -/
def lock (p : WorkerProcess β) (thread : ThreadId) : Option (WorkerProcess β) :=
  match p.registryMutex with
  | none => some { p with registryMutex := some (thread, 0) }
  | some (owner, again) =>
      if owner = thread then some { p with registryMutex := some (owner, again + 1) } else none

/-- A thread unlocks the mutex if it owns it, and not while it waits in the provider. -/
def unlock (p : WorkerProcess β) (thread : ThreadId) : Option (WorkerProcess β) :=
  match p.registryMutex with
  | none => none
  | some (owner, again) =>
      if owner = thread ∧ ∀ c ∈ p.dllCalls, c.thread ≠ thread then
        some { p with registryMutex := if again = 0 then none else some (owner, again - 1) }
      else none

/-- `get_dll_from_controller` up to the call of `receive`
    (`distributed_worker.cpp:334-343`). -/
def getDllFromController (dll : DllArchive β) (p : WorkerProcess β) (thread : ThreadId)
    (libName : String) : Option (WorkerProcess β) :=
  match p.registryMutex with
  | none => none
  | some (owner, _) =>
      if owner = thread ∧ ∀ c ∈ p.dllCalls, c.thread ≠ thread then
        some { p with
          dllCalls := p.dllCalls ++ [⟨thread, libName, []⟩]
          workerDllHandler := p.workerDllHandler ++ [dll.getDllRequest ⟨libName⟩]
          asked := p.asked ++ [libName] }
      else none

/-- The rest of it (`distributed_worker.cpp:345-359`): messages of another type are skipped. -/
def receiveDll (dll : DllArchive β) (p : WorkerProcess β) (thread : ThreadId) :
    Option (WorkerProcess β) :=
  match p.dllCalls.find? fun c => c.thread = thread with
  | none => none
  | some call =>
      match call.inbox with
      | [] => none
      | .dllBinary binary :: _ =>
          some { p with
            dllCalls := p.dllCalls.filter fun c => c.thread ≠ thread
            returned := p.returned ++
              [(call.libName, (dll.dllBinaryContainer binary).map (·.dllFile))] }
      | .allocateWork _ :: rest =>
          some { p with dllCalls := p.dllCalls.map fun c =>
            if c.thread = thread then { c with inbox := rest } else c }

def threadStep (dll : DllArchive β) (p : WorkerProcess β) :
    ThreadEvent β → Option (WorkerProcess β)
  | .lock thread => p.lock thread
  | .unlock thread => p.unlock thread
  | .getDll thread libName => p.getDllFromController dll thread libName
  | .receive thread => p.receiveDll dll thread
  | .results binary => some { p with workerMain := p.workerMain ++ [binary] }

/-- `_threadSocket.send("worker_dll_handler", …)` goes to the socket that was connected
    first; without one the message is dropped. -/
def sendToDllHandler (calls : List (DllCall β)) (msg : ToWorkerMsg β) : List (DllCall β) :=
  match calls with
  | [] => []
  | c :: rest => { c with inbox := c.inbox ++ [msg] } :: rest

/-- The calls after the main loop has handled a message of the controller
    (`distributed_worker.cpp:18-42`). -/
def forwardDll (calls : List (DllCall β)) : ToWorkerMsg β → List (DllCall β)
  | .allocateWork _ => calls
  | .dllBinary binary => sendToDllHandler calls (.dllBinary binary)

/-- The main loop handles the oldest message of one of its queues. -/
def mainStep (p : WorkerProcess β) : MainEvent → Option (WorkerProcess β)
  | .workerMain =>
      match p.worker.fault, p.workerMain with
      | none, binary :: rest => some { p with
          worker := p.worker.afterHandler (p.worker.handleThreadSocketMsg (.workResults binary))
          workerMain := rest }
      | _, _ => none
  | .workerDllHandler =>
      match p.worker.fault, p.workerDllHandler with
      | none, binary :: rest => some { p with
          worker := p.worker.afterHandler (p.worker.handleThreadSocketMsg (.getDll binary))
          workerDllHandler := rest }
      | _, _ => none
  | .controller =>
      match p.worker.fault, p.inbound with
      | none, msg :: rest => some { p with
          worker := p.worker.receive msg
          dllCalls := forwardDll p.dllCalls msg
          inbound := rest }
      | _, _ => none

/-- Messages of the controller arrive. -/
def deliver (p : WorkerProcess β) (messages : List (ToWorkerMsg β)) : WorkerProcess β :=
  { p with inbound := p.inbound ++ messages }

end WorkerProcess

/-- The controller with its workers. -/
structure Downloads (β : Type) where
  session : Session β
  process : WorkerId → WorkerProcess β
  /-- The requests for libraries of each worker that the controller has handled, with what
      `get_lib_as_file` returned. -/
  handled : WorkerId → List (String × Option Bytes)

inductive DownloadEvent (β : Type) where
  | thread (workerId : WorkerId) (e : ThreadEvent β)
  | main (workerId : WorkerId) (e : MainEvent)
  /-- The controller takes the oldest message of a worker. -/
  | serve (workerId : WorkerId) (env : Surroundings)
  /-- The connection of a worker is made. -/
  | hello (workerId : WorkerId) (env : Surroundings)
  /-- The controller takes a message of an island. -/
  | island (islandId : IslandId) (env : Surroundings) (msg : IslandMsg β)

namespace Downloads

variable {β Algo Pop : Type}

def start (records : UnorderedMap WorkerId WorkerInfo) : Downloads β where
  session := Session.start records
  process _ := {}
  handled _ := []

def setProcess (s : Downloads β) (w : WorkerId) (p : WorkerProcess β) : Downloads β :=
  { s with process := Function.update s.process w p }

def deliver (s : Downloads β) : Sent β → Downloads β
  | .toWorker w msg => s.setProcess w ((s.process w).deliver [msg])
  | .toIsland _ _ => s

/-- The controller handles a message, and what it sends is delivered. -/
def handle (archive : Archive β Algo Pop) (env : Surroundings) (s : Downloads β)
    (msg : Incoming β) : Option (Downloads β) :=
  (Session.step archive s.session ⟨env, msg⟩).map fun session =>
    session.server.sent.foldl deliver { s with session }

/-- The name in a request that the controller handles, and what `get_lib_as_file` returns,
    if it does. -/
def answerTo (archive : Archive β Algo Pop) (env : Surroundings) :
    ThreadMsg β → List (String × Option Bytes)
  | .workResults _ => []
  | .getDll binary =>
      match archive.getDllRequest binary with
      | .ok request =>
          match env.getLibAsFile request.dllName with
          | .ok file => [(request.dllName, file)]
          | .error _ => []
      | .error _ => []

def step (archive : Archive β Algo Pop) (dll : DllArchive β) (s : Downloads β) :
    DownloadEvent β → Option (Downloads β)
  | .thread w e => ((s.process w).threadStep dll e).map fun p => s.setProcess w p
  | .main w e => ((s.process w).mainStep e).map fun p => s.setProcess w p
  | .serve w env =>
      let p := s.process w
      match p.worker.workerSocket with
      | [] => none
      | msg :: rest =>
          let s := s.setProcess w { p with worker := { p.worker with workerSocket := rest } }
          let handled := s.handled w ++ answerTo archive env msg
          handle archive env { s with handled := Function.update s.handled w handled }
            (.fromWorker w msg.toController)
  | .hello w env => s.handle archive env (.fromWorker w .workerJoin)
  | .island i env msg => s.handle archive env (.fromIsland i msg)

end Downloads

end Metasolver
