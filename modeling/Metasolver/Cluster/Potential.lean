import Metasolver.Lib.Potential
import Metasolver.Cluster.Invariant
import Metasolver.Cluster.Attribution

/-!
# How much the parties have to do

Every message and every running thread is given the number of steps that can still follow
from it (`due`).  A request of an island is worth seven: the controller takes it, the worker
takes the work, its thread finishes, the main loop takes the results, they are transmitted,
the controller takes them, and so does the island.  No step of a party raises the sum by
anything, and each lowers it by one at least; only what comes from outside raises it.  So a
run cannot go on for ever by itself, whatever fails in it and whatever the payloads are
(`party_steps_le`).

The sums run over the workers and islands that the events of the run name.
-/

namespace Metasolver

open Exec

variable {β Algo Pop : Type}

/-! ## What is due -/

/-- `WORKER_LEAVE` can put work of six steps back. -/
def WorkerMsg.due : WorkerMsg β → Nat
  | .workerJoin => 1
  | .workerLeave => 7
  | .workResults _ => 2
  | .getDll _ => 2
  | .unhandled _ _ => 1

def ToWorkerMsg.due : ToWorkerMsg β → Nat
  | .allocateWork _ => 6
  | .dllBinary _ => 1

def Sent.due : Sent β → Nat
  | .toWorker _ msg => msg.due
  | .toIsland _ _ => 1

def Incoming.due : Incoming β → Nat
  | .fromWorker _ msg => msg.due
  | .fromIsland _ (.allocateWork _) => 7
  | .fromIsland _ (.unhandled _ _) => 1

/-- A thread that waits for a library has still to evolve. -/
def WorkerThread.due : WorkerThread β → Nat
  | .running _ => 5
  | .awaitingDll _ => 5
  | _ => 0

def Worker.due (v : Worker β) : Nat :=
  v.workerThread.due + 4 * v.threadSocket.length + 3 * v.workerSocket.length

def Peer.due (p : Peer β) : Nat :=
  (p.inbound.map WorkerMsg.due).sum + (p.outbound.map ToWorkerMsg.due).sum + p.worker.due

def Island.due (x : Island β) : Nat := 7 * x.toController.length + x.inbox.length

/-- The requests that wait in the controller. -/
def Controller.due (c : Controller β) : Nat := 6 * c.islandsWaitingForAlloc.keys.card

/-- A server that has stopped does nothing. -/
def Server.due : Server β → Nat
  | .running c => c.due
  | .stopped _ _ => 0

/-- What follows from the messages that a handler has sent. -/
def Controller.outlay (c : Controller β) : Nat := (c.sent.map Sent.due).sum

/-! ## The handlers -/

namespace Controller

variable {archive : Archive β Algo Pop} {env : Surroundings} {c c' : Controller β} {i : IslandId}
  {d : β} {w : WorkerId}

theorem outlay_snoc {m : Sent β} :
    outlay { c with sent := c.sent ++ [m] } = c.outlay + m.due := by
  simp [outlay]

theorem due_queued : (c.queued i d).due ≤ c.due + 6 := by
  have grown : (c.queued i d).islandsWaitingForAlloc.keys.card ≤
      c.islandsWaitingForAlloc.keys.card + 1 := by
    rw [queued, UnorderedMap.keys_emplace]
    exact Finset.card_insert_le i _
  unfold due
  omega

theorem due_popped (waiting : c.islandsWaitingForAlloc.lookup i = some d) :
    (c.popped i).due + 6 = c.due := by
  have member : i ∈ c.islandsWaitingForAlloc.keys :=
    Finmap.mem_keys.mpr (Finmap.mem_of_lookup_eq_some waiting)
  have shrunk := Finset.card_erase_add_one member
  have keys : (c.popped i).islandsWaitingForAlloc.keys =
      c.islandsWaitingForAlloc.keys.erase i := Finmap.keys_erase i _
  unfold due
  rw [keys]
  omega

theorem Allocates.due_eq (h : Allocates archive env i d c c') :
    c'.due = c.due ∧ c'.outlay = c.outlay + 6 := by
  obtain ⟨w, repo, -, -⟩ := h
  have sent : outlay (c.allocated w i d repo) =
      c.outlay + (Sent.toWorker w (.allocateWork d)).due := by
    simp [outlay, allocated]
  exact ⟨rfl, sent⟩

theorem Places.due_le (h : Places archive env i d c c') :
    c'.due + c'.outlay ≤ c.due + c.outlay + 6 := by
  cases h with
  | queue =>
      have grown := @due_queued _ c i d
      have silent : (c.queued i d).outlay = c.outlay := rfl
      omega
  | allocate someFree c' h =>
      obtain ⟨same, paid⟩ := h.due_eq
      omega

/-- The work a freed worker is given has waited. -/
theorem Frees.due_eq (h : Frees archive env w c c') :
    c'.due + c'.outlay = c.due + c.outlay := by
  cases h with
  | release => rfl
  | serve i d waiting c' h =>
      obtain ⟨same, paid⟩ := h.due_eq
      have shrunk : ((c.released w).popped i).due + 6 = (c.released w).due := due_popped waiting
      have unchanged : (c.released w).due = c.due := rfl
      have silent : ((c.released w).popped i).outlay = c.outlay := rfl
      omega

theorem Handled.due_lt {msg : Incoming β} (h : Handled archive env c msg c') :
    c'.due + c'.outlay < c.due + c.outlay + msg.due := by
  cases h with
  | joinKnown => exact Nat.lt_succ_self _
  | join w unknown c' h =>
      have same : c'.due + c'.outlay = c.due + c.outlay := h.due_eq
      rw [same]
      exact Nat.lt_succ_self _
  | leaveIdle w idle => exact Nat.lt_add_of_pos_right (Nat.succ_pos 6)
  | leaveBusy w record busy c' h =>
      have placed : c'.due + c'.outlay ≤ c.due + c.outlay + 6 := h.due_le
      exact Nat.lt_succ_of_le placed
  | results w binary wct repo record readable finished busy c' h =>
      have freed := h.due_eq
      have answered : (c.answered w record.islandId binary repo).outlay =
          c.outlay + (Sent.toIsland record.islandId binary).due := outlay_snoc
      have same : (c.answered w record.islandId binary repo).due = c.due := rfl
      rw [answered, same] at freed
      rw [freed]
      exact Nat.lt_succ_self _
  | getDll w binary reply =>
      rw [outlay_snoc]
      exact Nat.lt_succ_self _
  | request i d c' h => exact Nat.lt_succ_of_le h.due_le
  | unhandledWorker => exact Nat.lt_succ_self _
  | unhandledIsland => exact Nat.lt_succ_self _

/-- A handler that faults has passed on a result at most. -/
theorem outlay_of_error {msg : Incoming β} {f : Fault} (quiet : c.sent = [])
    (h : (handle archive env msg).run c = .error f c') : c'.outlay < msg.due := by
  obtain ⟨-, same | ⟨w, binary, record, rfl, -, sent⟩⟩ := handle_error h
  · have silent : c'.outlay = 0 := by
      rw [outlay, same, quiet]
      rfl
    rw [silent]
    rcases msg with ⟨w, m⟩ | ⟨i, m⟩
    · cases m <;> exact Nat.succ_pos _
    · cases m <;> exact Nat.succ_pos _
  · rw [outlay, sent, quiet]
    exact Nat.lt_succ_self 1

end Controller

/-! ## Workers and islands -/

/-- The step is one of the worker, its thread or its socket. -/
def PeerEvent.gain : PeerEvent β → Nat
  | .transmits => 1
  | .workerReceives => 1
  | .threadFinishes _ => 1
  | .threadSocketReceives => 1
  | _ => 0

/-- What a change from outside, or a thread that asks for a library, gives cause for. -/
def PeerEvent.price : PeerEvent β → Nat
  | .connects => 1
  | .disconnects _ => 7
  | .threadRequestsDll _ => 4
  | _ => 0

def IslandEvent.gain : IslandEvent β → Nat
  | .requestsWork _ => 0
  | .receivesResults => 1

def IslandEvent.price : IslandEvent β → Nat
  | .requestsWork _ => 7
  | .receivesResults => 0

namespace Worker

variable {v v' : Worker β}

theorem due_sendToDllHandler : v.sendToDllHandler.due = v.due := by
  rcases @sendToDllHandler_cases _ v with ⟨workData, thread, sent⟩ | same
  · rw [sent, due, due, thread]
    rfl
  · rw [same]

theorem due_receive (msg : ToWorkerMsg β) : (v.receive msg).due < v.due + msg.due := by
  cases msg with
  | allocateWork workData =>
      cases joinable : v.workerThread.joinable with
      | true =>
          simp only [receive, handleWorkerSocketMsg, startWorkerThread, joinable, if_true,
            afterHandler, due, ToWorkerMsg.due]
          omega
      | false =>
          simp only [receive, handleWorkerSocketMsg, startWorkerThread, joinable, afterHandler,
            due, ToWorkerMsg.due, WorkerThread.due]
          simp only [Bool.false_eq_true, if_false]
          omega
  | dllBinary binary =>
      change v.sendToDllHandler.due < v.due + 1
      rw [due_sendToDllHandler]
      exact Nat.lt_succ_self _

theorem due_threadFinishes {evolve : β → β} (h : v.threadFinishes evolve = some v') :
    v'.due < v.due := by
  obtain ⟨workData, -, thread, rfl⟩ := threadFinishes_cases h
  simp only [due, thread, WorkerThread.due, List.length_append, List.length_singleton]
  omega

theorem due_threadRequestsDll {request : β} (h : v.threadRequestsDll request = some v') :
    v'.due = v.due + 4 := by
  obtain ⟨workData, -, thread, rfl⟩ := threadRequestsDll_cases h
  simp only [due, thread, WorkerThread.due, List.length_append, List.length_singleton]
  omega

/-- Results of a thread that cannot be joined would be lost, and the main loop with them. -/
theorem due_threadSocketReceives (h : v.threadSocketReceives = some v') : v'.due < v.due := by
  unfold threadSocketReceives at h
  split at h
  case h_1 m rest alive oldest =>
    simp only [Option.some.injEq] at h
    subst h
    cases m with
    | workResults binary =>
        cases joinable : v.workerThread.joinable with
        | true =>
            have joined : handleThreadSocketMsg { v with threadSocket := rest }
                (.workResults binary) = .ok { v with
                  workerThread := .notJoinable
                  threadSocket := rest
                  workerSocket := v.workerSocket ++ [.workResults binary] } := by
              simp [handleThreadSocketMsg, joinWorkerThread, joinable]
            rw [joined]
            simp only [afterHandler, due, WorkerThread.due, oldest, List.length_append,
              List.length_cons, List.length_nil]
            omega
        | false =>
            have thrown : handleThreadSocketMsg { v with threadSocket := rest }
                (.workResults binary) = .error .systemError := by
              simp [handleThreadSocketMsg, joinWorkerThread, joinable]
            rw [thrown]
            simp only [afterHandler, due, oldest, List.length_cons]
            omega
    | getDll binary =>
        change v.workerThread.due + 4 * rest.length +
          3 * (v.workerSocket ++ [ThreadMsg.getDll binary]).length < v.due
        rw [due, oldest, List.length_append, List.length_singleton, List.length_cons]
        omega
  case h_2 => cases h

end Worker

theorem ThreadMsg.due_toController (m : ThreadMsg β) : m.toController.due = 2 := by
  cases m <;> rfl

theorem Peer.due_step {p p' : Peer (Parcel β)} {e : PeerEvent β} (h : p.step e = some p') :
    p'.due + e.gain ≤ p.due + e.price := by
  cases step_cases h with
  | connects down =>
      simp only [due, PeerEvent.gain, PeerEvent.price, List.map_append, List.sum_append,
        List.map_singleton, List.sum_singleton, WorkerMsg.due]
      omega
  | disconnects arrived up =>
      have fewer : ((p.outbound.take arrived).map ToWorkerMsg.due).sum ≤
          (p.outbound.map ToWorkerMsg.due).sum := by
        conv => rhs; rw [← List.take_append_drop arrived p.outbound]
        rw [List.map_append, List.sum_append]
        exact Nat.le_add_right _ _
      simp only [due, PeerEvent.gain, PeerEvent.price, List.map_append, List.sum_append,
        List.map_singleton, List.sum_singleton, WorkerMsg.due]
      omega
  | restarts down =>
      simp only [due, PeerEvent.gain, PeerEvent.price, List.map_nil, List.sum_nil, Worker.due,
        WorkerThread.due, List.length_nil]
      omega
  | transmits m rest up queue =>
      simp only [due, PeerEvent.gain, PeerEvent.price, List.map_append, List.sum_append,
        List.map_singleton, List.sum_singleton, ThreadMsg.due_toController, Worker.due, queue,
        List.length_cons]
      omega
  | workerReceives m rest alive next =>
      have received := @Worker.due_receive _ p.worker m
      simp only [due, PeerEvent.gain, PeerEvent.price, next, List.map_cons, List.sum_cons]
      omega
  | threadFinishes results v hv =>
      have finished := Worker.due_threadFinishes hv
      simp only [due, PeerEvent.gain, PeerEvent.price]
      omega
  | threadRequestsDll request v hv =>
      have asked := Worker.due_threadRequestsDll hv
      simp only [due, PeerEvent.gain, PeerEvent.price]
      omega
  | threadSocketReceives v hv =>
      have received := Worker.due_threadSocketReceives hv
      simp only [due, PeerEvent.gain, PeerEvent.price]
      omega

theorem Peer.due_deliver {p : Peer β} {msg : ToWorkerMsg β} :
    (p.deliver msg).due ≤ p.due + msg.due := by
  unfold Peer.deliver
  split
  case isTrue up =>
    simp only [due, List.map_append, List.sum_append, List.map_singleton, List.sum_singleton]
    omega
  case isFalse down => exact Nat.le_add_right _ _

theorem Island.due_step {x x' : Island β} {i : IslandId} {e : IslandEvent β}
    (h : x.step i e = some x') : x'.due + e.gain = x.due + e.price := by
  cases e with
  | requestsWork workData =>
      cases awaiting : x.awaiting with
      | some r => simp [Island.step, awaiting] at h
      | none =>
          simp only [Island.step, awaiting, Option.some.injEq] at h
          subst h
          simp only [due, IslandEvent.gain, IslandEvent.price, List.length_append,
            List.length_singleton]
          omega
  | receivesResults =>
      cases awaiting : x.awaiting with
      | none => simp [Island.step, awaiting] at h
      | some r =>
          cases inbox : x.inbox with
          | nil => simp [Island.step, awaiting, inbox] at h
          | cons binary rest =>
              simp only [Island.step, awaiting, inbox, Option.some.injEq] at h
              subst h
              simp only [due, IslandEvent.gain, IslandEvent.price, inbox, List.length_cons]
              omega

/-! ## The cluster -/

namespace ClusterEvent

/-- The step is one of a party: the controller, a worker or an island. -/
def gain : ClusterEvent β → Nat
  | .peer _ e => e.gain
  | .island _ e => e.gain
  | .serveWorker _ _ => 1
  | .serveIsland _ _ => 1

def price : ClusterEvent β → Nat
  | .peer _ e => e.price
  | .island _ e => e.price
  | .serveWorker _ _ => 0
  | .serveIsland _ _ => 0

def workerId : ClusterEvent β → Option WorkerId
  | .peer w _ => some w
  | .serveWorker w _ => some w
  | _ => none

def islandId : ClusterEvent β → Option IslandId
  | .island i _ => some i
  | .serveIsland i _ => some i
  | _ => none

end ClusterEvent

/-- The workers and islands that events name. -/
structure Names where
  workers : Finset WorkerId
  islands : Finset IslandId

def Names.of (es : List (ClusterEvent β)) : Names where
  workers := (es.filterMap ClusterEvent.workerId).toFinset
  islands := (es.filterMap ClusterEvent.islandId).toFinset

/-- The event happens to a worker or an island that is named. -/
def Names.Has (names : Names) (e : ClusterEvent β) : Prop :=
  (∀ w, e.workerId = some w → w ∈ names.workers) ∧
    ∀ i, e.islandId = some i → i ∈ names.islands

theorem Names.has_of_mem {es : List (ClusterEvent β)} {e : ClusterEvent β} (member : e ∈ es) :
    (Names.of es).Has e :=
  ⟨fun _ named => List.mem_toFinset.mpr (List.mem_filterMap.mpr ⟨e, member, named⟩),
    fun _ named => List.mem_toFinset.mpr (List.mem_filterMap.mpr ⟨e, member, named⟩)⟩

namespace Cluster

open scoped BigOperators

/-- What is due in the cluster. -/
def due (names : Names) (s : Cluster β) : Nat :=
  ∑ w ∈ names.workers, (s.peer w).due + ∑ i ∈ names.islands, (s.island i).due +
    s.session.server.due

variable {archive : Archive β Algo Pop} {names : Names} {s t : Cluster β}
  {c : Controller (Parcel β)} {w : WorkerId} {i : IslandId}

/-- One worker has changed. -/
theorem due_update_peer {p : Peer (Parcel β)} (named : w ∈ names.workers) :
    due names { s with peer := Function.update s.peer w p } + (s.peer w).due =
      due names s + p.due := by
  have changed := Potential.sum_update (f := s.peer) (x := p) Peer.due named
  simp only [due]
  omega

/-- One island has changed. -/
theorem due_update_island {x : Island β} (named : i ∈ names.islands) :
    due names { s with island := Function.update s.island i x } + (s.island i).due =
      due names s + x.due := by
  have changed := Potential.sum_update (f := s.island) (x := x) Island.due named
  simp only [due]
  omega

theorem due_deliver {m : Sent (Parcel β)} : due names (s.deliver m) ≤ due names s + m.due := by
  cases m with
  | toWorker w msg =>
      have more : ((s.peer w).deliver msg).due ≤ (s.peer w).due + msg.due := Peer.due_deliver
      have changed : ∑ v ∈ names.workers, ((s.deliver (.toWorker w msg)).peer v).due ≤
          ∑ v ∈ names.workers, (s.peer v).due + msg.due := Potential.sum_update_le Peer.due more
      have islands : ∑ i ∈ names.islands, ((s.deliver (.toWorker w msg)).island i).due =
          ∑ i ∈ names.islands, (s.island i).due := rfl
      have server : (s.deliver (.toWorker w msg)).session.server = s.session.server := rfl
      have worth : (Sent.toWorker w msg).due = msg.due := rfl
      unfold due
      rw [islands, server, worth]
      omega
  | toIsland i binary =>
      have more : ({ s.island i with inbox := (s.island i).inbox ++ [binary] } : Island β).due ≤
          (s.island i).due + 1 := by
        simp only [Island.due, List.length_append, List.length_singleton]
        omega
      have changed : ∑ j ∈ names.islands, ((s.deliver (.toIsland i binary)).island j).due ≤
          ∑ j ∈ names.islands, (s.island j).due + 1 := Potential.sum_update_le Island.due more
      have workers : ∑ w ∈ names.workers, ((s.deliver (.toIsland i binary)).peer w).due =
          ∑ w ∈ names.workers, (s.peer w).due := rfl
      have server : (s.deliver (.toIsland i binary)).session.server = s.session.server := rfl
      have worth : (Sent.toIsland i binary).due = 1 := rfl
      unfold due
      rw [workers, server, worth]
      omega

theorem due_deliverAll {messages : List (Sent (Parcel β))} :
    due names (s.deliverAll messages) ≤ due names s + (messages.map Sent.due).sum := by
  induction messages using List.reverseRecOn with
  | nil => exact Nat.le_refl _
  | append_singleton messages m ih =>
      have last := @due_deliver _ names (s.deliverAll messages) m
      rw [deliverAll_snoc, List.map_append, List.sum_append, List.map_singleton,
        List.sum_singleton]
      omega

/-- The controller handles a message that nobody has any more. -/
theorem due_serve (names : Names) {env : Surroundings} {msg : Incoming (Parcel β)}
    (running : s.session.server = .running c) (h : s.serve archive env msg = some t) :
    due names t < due names s + msg.due := by
  have before : due names s = ∑ w ∈ names.workers, (s.peer w).due +
      ∑ i ∈ names.islands, (s.island i).due + c.due := by
    rw [due, running]
    rfl
  rcases serve_cases running h with ⟨c', handled, rfl⟩ | ⟨f, c', faulted, rfl⟩
  · have told := @due_deliverAll _ names { s with
      session := ⟨.running c', Session.record s.session.log msg c'⟩ } c'.sent
    have now : due names { s with
        session := ⟨.running c', Session.record s.session.log msg c'⟩ } =
        ∑ w ∈ names.workers, (s.peer w).due + ∑ i ∈ names.islands, (s.island i).due + c'.due :=
      rfl
    have spent : c'.due + c'.outlay < c.due + 0 + msg.due := handled.due_lt
    have outlay : (c'.sent.map Sent.due).sum = c'.outlay := rfl
    rw [served]
    omega
  · have told := @due_deliverAll _ names { s with
      session := ⟨.stopped f c', Session.record s.session.log msg c'⟩ } c'.sent
    have now : due names { s with
        session := ⟨.stopped f c', Session.record s.session.log msg c'⟩ } =
        ∑ w ∈ names.workers, (s.peer w).due + ∑ i ∈ names.islands, (s.island i).due + 0 := rfl
    have spent : c'.outlay < msg.due := Controller.outlay_of_error rfl faulted
    have outlay : (c'.sent.map Sent.due).sum = c'.outlay := rfl
    rw [served]
    omega

/-- The step lemma: what a step gains is paid for by what is due, or from outside. -/
theorem due_step {e : ClusterEvent β} (named : names.Has e) (h : s.step archive e = some t) :
    due names t + e.gain ≤ due names s + e.price := by
  cases e with
  | peer w e =>
      obtain ⟨p, hp, rfl⟩ := Option.map_eq_some_iff.mp h
      have paid : p.due + e.gain ≤ (s.peer w).due + e.price := Peer.due_step hp
      have changed := due_update_peer (s := s) (p := p) (named.1 w rfl)
      simp only [ClusterEvent.gain, ClusterEvent.price]
      omega
  | island i e =>
      obtain ⟨x, hx, rfl⟩ := Option.map_eq_some_iff.mp h
      have paid : x.due + e.gain = (s.island i).due + e.price := Island.due_step hx
      have changed := due_update_island (s := s) (x := x) (named.2 i rfl)
      simp only [ClusterEvent.gain, ClusterEvent.price]
      omega
  | serveWorker w env =>
      obtain ⟨c, m, rest, running, next, h⟩ := step_serveWorker h
      have changed := due_update_peer (s := s) (p := { s.peer w with inbound := rest })
        (named.1 w rfl)
      have taken : ({ s.peer w with inbound := rest } : Peer (Parcel β)).due + m.due =
          (s.peer w).due := by
        simp only [Peer.due, next, List.map_cons, List.sum_cons]
        omega
      have running' : ({ s with peer := Function.update s.peer w { s.peer w with
          inbound := rest } } : Cluster β).session.server = .running c := running
      have handled := due_serve names running' h
      have worth : (Incoming.fromWorker w m).due = m.due := rfl
      simp only [ClusterEvent.gain, ClusterEvent.price]
      omega
  | serveIsland i env =>
      obtain ⟨c, d, rest, running, next, h⟩ := step_serveIsland h
      have changed := due_update_island (s := s) (x := { s.island i with toController := rest })
        (named.2 i rfl)
      have taken : ({ s.island i with toController := rest } : Island β).due + 7 =
          (s.island i).due := by
        simp only [Island.due, next, List.length_cons]
        omega
      have running' : ({ s with island := Function.update s.island i { s.island i with
          toController := rest } } : Cluster β).session.server = .running c := running
      have handled := due_serve names running' h
      have worth : (Incoming.fromIsland i (.allocateWork d)).due = 7 := rfl
      simp only [ClusterEvent.gain, ClusterEvent.price]
      omega

theorem due_start (records : UnorderedMap WorkerId WorkerInfo) :
    due names (Cluster.start records : Cluster β) = 0 := by
  simp [due, Cluster.start, Session.start, Server.due, Controller.due, Controller.start, Peer.due,
    Island.due, Worker.due, WorkerThread.due]

end Cluster

/-- However the steps interleave, which connections are lost and whatever fails, the parties
    make at most seven steps for each request, four for each library that a thread asks for,
    one for each connection made and seven for each lost. -/
theorem party_steps_le (archive : Archive β Algo Pop) (records : UnorderedMap WorkerId WorkerInfo)
    (es : List (ClusterEvent β)) (t : Cluster β)
    (run : exec (Cluster.step archive) (Cluster.start records) es = some t) :
    (es.map ClusterEvent.gain).sum ≤ (es.map ClusterEvent.price).sum := by
  have paid : Cluster.due (Names.of es) t + (es.map ClusterEvent.gain).sum ≤
      Cluster.due (Names.of es) (Cluster.start records : Cluster β) +
        (es.map ClusterEvent.price).sum :=
    Potential.exec_paid
      (fun s e t member h => Cluster.due_step (Names.has_of_mem member) h) run
  rw [Cluster.due_start] at paid
  omega

/-- Nine steps of at most sixteen. -/
theorem party_steps_le_reconnect :
    (reconnectRun.map ClusterEvent.gain).sum ≤ (reconnectRun.map ClusterEvent.price).sum :=
  party_steps_le Archive.plain ∅ reconnectRun _ rfl

end Metasolver
