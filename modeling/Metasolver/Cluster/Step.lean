import Metasolver.Worker
import Metasolver.Controller.WorkConservation

/-!
# The controller with its workers and islands

One controller, any number of workers and islands, and the messages between them.
A step is one message handled by one party, one action of a worker thread, or a
change of a connection; the parties interleave in any order.

What ZeroMQ does is in `Peer`.  A connection delivers in order.  When it is lost
the controller is handed `WORKER_LEAVE` and when it is made `WORKER_JOIN`
(`disconnect_msg` and `hello_msg`).  What the worker has sent stays in its socket
until it can be transmitted; what the controller sends to a worker that is not
connected is dropped, and what was on its way when the connection was lost arrives
up to some point.  A worker process that has ended can be started again under the
same routing id, which its settings file keeps.  Islands live in the process of the
controller and do not lose their connection.

Payloads are tracked: a `Parcel` carries with its content the request from which
the content was computed.  No code reads this field: the archive reads the content alone
(`Archive.tracked`), and the controller of the cluster is the controller of `Handlers` at
the payload type `Parcel β`.
-/

namespace Metasolver

/-- The `number`-th request of an island. -/
structure Request (β : Type) where
  island : IslandId
  number : Nat
  workData : β
  deriving DecidableEq, Repr

/-- A payload and the request it goes back to, if any. -/
structure Parcel (β : Type) where
  content : β
  origin : Option (Request β)
  deriving DecidableEq, Repr

/-- The payload of the `ALLOCATE_WORK` message. -/
def Request.parcel {β : Type} (r : Request β) : Parcel β := ⟨r.workData, some r⟩

/-- The request a worker thread serves that evolves this payload: the request the
    payload came with, for the work data that is really in it. -/
def Parcel.served {β : Type} (p : Parcel β) : Option (Request β) :=
  p.origin.map fun r => { r with workData := p.content }

@[simp] theorem Request.served_parcel {β : Type} (r : Request β) : r.parcel.served = some r := rfl

/-- The archive on tracked payloads reads the content only. -/
def Archive.tracked {β Algo Pop : Type} (archive : Archive β Algo Pop) :
    Archive (Parcel β) Algo Pop where
  workContainer p := archive.workContainer p.content
  getDllRequest p := archive.getDllRequest p.content
  dllBinaryContainer container := ⟨archive.dllBinaryContainer container, none⟩
  getName := archive.getName
  size := archive.size

/-! ## Islands -/

/-- An island: its requests so far, the one it waits for, and the messages to and
    from the controller. -/
structure Island (β : Type) where
  requests : Nat := 0
  awaiting : Option (Request β) := none
  toController : List (Parcel β) := []
  inbox : List (Parcel β) := []
  deriving DecidableEq, Repr

inductive IslandEvent (β : Type) where
  | requestsWork (workData : β)
  | receivesResults
  deriving Repr

/-- `distributed_island::run_evolve` (`distributed_island.cpp:98-138`): it sends one
    `ALLOCATE_WORK` and blocks until a message arrives. -/
def Island.step {β : Type} (i : IslandId) (x : Island β) : IslandEvent β → Option (Island β)
  | .requestsWork workData =>
      match x.awaiting with
      | some _ => none
      | none =>
          let r : Request β := ⟨i, x.requests, workData⟩
          some { x with
            requests := x.requests + 1
            awaiting := some r
            toController := x.toController ++ [r.parcel] }
  | .receivesResults =>
      match x.awaiting, x.inbox with
      | some _, _ :: rest => some { x with awaiting := none, inbox := rest }
      | _, _ => none

/-! ## Workers and their connections -/

/-- A worker and its connection: what the controller has not received from it, and
    what it has not handled from the controller. -/
structure Peer (β : Type) where
  linked : Bool := false
  inbound : List (WorkerMsg β) := []
  outbound : List (ToWorkerMsg β) := []
  worker : Worker β := {}
  deriving DecidableEq, Repr

inductive PeerEvent (β : Type) where
  | connects
  /-- The first `arrived` messages on the way to the worker have reached it. -/
  | disconnects (arrived : Nat)
  /-- The process has ended, with its thread and its sockets, and is started again. -/
  | restarts
  | transmits
  | workerReceives
  | threadFinishes (results : β)
  | threadRequestsDll (request : β)
  | threadSocketReceives
  deriving Repr

namespace Peer

variable {β : Type}

/-- A message the controller sends to this worker. -/
def deliver (p : Peer β) (msg : ToWorkerMsg β) : Peer β :=
  if p.linked then { p with outbound := p.outbound ++ [msg] } else p

def step (p : Peer (Parcel β)) : PeerEvent β → Option (Peer (Parcel β))
  | .connects =>
      if p.linked then none
      else some { p with linked := true, inbound := p.inbound ++ [.workerJoin] }
  | .disconnects arrived =>
      if p.linked then some { p with
        linked := false
        inbound := p.inbound ++ [.workerLeave]
        outbound := p.outbound.take arrived }
      else none
  | .restarts => if p.linked then none else some { p with outbound := [], worker := {} }
  | .transmits =>
      match p.linked, p.worker.workerSocket with
      | true, msg :: rest => some { p with
          inbound := p.inbound ++ [msg.toController]
          worker := { p.worker with workerSocket := rest } }
      | _, _ => none
  | .workerReceives =>
      match p.worker.fault, p.outbound with
      | none, msg :: rest => some { p with outbound := rest, worker := p.worker.receive msg }
      | _, _ => none
  | .threadFinishes results =>
      (p.worker.threadFinishes fun workData => ⟨results, workData.served⟩).map fun v =>
        { p with worker := v }
  | .threadRequestsDll request =>
      (p.worker.threadRequestsDll ⟨request, none⟩).map fun v => { p with worker := v }
  | .threadSocketReceives => p.worker.threadSocketReceives.map fun v => { p with worker := v }

end Peer

/-! ## Jobs on a worker -/

/-- The request a message returns results of. -/
def WorkerMsg.job {β : Type} : WorkerMsg (Parcel β) → Option (Option (Request β))
  | .workResults binary => some binary.origin
  | _ => none

def ThreadMsg.job {β : Type} : ThreadMsg (Parcel β) → Option (Option (Request β))
  | .workResults binary => some binary.origin
  | .getDll _ => none

def ToWorkerMsg.job {β : Type} : ToWorkerMsg (Parcel β) → Option (Option (Request β))
  | .allocateWork workData => some workData.served
  | .dllBinary _ => none

def WorkerThread.jobs {β : Type} : WorkerThread (Parcel β) → List (Option (Request β))
  | .running workData => [workData.served]
  | .awaitingDll workData => [workData.served]
  | _ => []

/-- The jobs the worker process has accepted and not handed over. -/
def Worker.jobs {β : Type} (v : Worker (Parcel β)) : List (Option (Request β)) :=
  v.workerSocket.filterMap ThreadMsg.job ++ v.threadSocket.filterMap ThreadMsg.job ++
    v.workerThread.jobs

/-- Everything the worker still carries: results on their way to the controller,
    jobs of the process, and work on its way to it. -/
def Peer.burden {β : Type} (p : Peer (Parcel β)) : List (Option (Request β)) :=
  p.inbound.filterMap WorkerMsg.job ++ p.worker.jobs ++ p.outbound.filterMap ToWorkerMsg.job

/-! ## The cluster -/

structure Cluster (β : Type) where
  session : Session (Parcel β)
  peer : WorkerId → Peer (Parcel β)
  island : IslandId → Island β

inductive ClusterEvent (β : Type) where
  | peer (workerId : WorkerId) (e : PeerEvent β)
  | island (islandId : IslandId) (e : IslandEvent β)
  /-- The controller takes the oldest message of a worker. -/
  | serveWorker (workerId : WorkerId) (env : Surroundings)
  /-- The controller takes the oldest message of an island. -/
  | serveIsland (islandId : IslandId) (env : Surroundings)

namespace Cluster

variable {β Algo Pop : Type}

def start (records : UnorderedMap WorkerId WorkerInfo) : Cluster β where
  session := Session.start records
  peer _ := {}
  island _ := {}

def deliver (s : Cluster β) : Sent (Parcel β) → Cluster β
  | .toWorker w msg => { s with peer := Function.update s.peer w ((s.peer w).deliver msg) }
  | .toIsland i binary =>
      let x := { s.island i with inbox := (s.island i).inbox ++ [binary] }
      { s with island := Function.update s.island i x }

def deliverAll (s : Cluster β) (messages : List (Sent (Parcel β))) : Cluster β :=
  messages.foldl deliver s

/-- The controller handles a message, and what it sends is delivered. -/
def serve (archive : Archive β Algo Pop) (env : Surroundings) (s : Cluster β)
    (msg : Incoming (Parcel β)) : Option (Cluster β) :=
  (Session.step archive.tracked s.session ⟨env, msg⟩).map fun session =>
    { s with session := session }.deliverAll session.server.sent

def step (archive : Archive β Algo Pop) (s : Cluster β) : ClusterEvent β → Option (Cluster β)
  | .peer w e => ((s.peer w).step e).map fun p => { s with peer := Function.update s.peer w p }
  | .island i e =>
      ((s.island i).step i e).map fun x => { s with island := Function.update s.island i x }
  | .serveWorker w env =>
      match (s.peer w).inbound with
      | [] => none
      | msg :: rest =>
          let p := { s.peer w with inbound := rest }
          { s with peer := Function.update s.peer w p }.serve archive env (.fromWorker w msg)
  | .serveIsland i env =>
      match (s.island i).toController with
      | [] => none
      | workData :: rest =>
          let x := { s.island i with toController := rest }
          { s with island := Function.update s.island i x }.serve archive env
            (.fromIsland i (.allocateWork workData))

/-- A `WORKER_JOIN` is handled only for a worker that carries no earlier job. -/
def JoinsIdle (s : Cluster β) : ClusterEvent β → Prop
  | .serveWorker w _ => (s.peer w).inbound.head? = some .workerJoin → (s.peer w).burden = []
  | _ => True

instance [DecidableEq β] (s : Cluster β) (e : ClusterEvent β) : Decidable (JoinsIdle s e) := by
  unfold JoinsIdle
  split <;> infer_instance

end Cluster

end Metasolver
