import Metasolver.Cluster.Invariant

/-!
# Connection losses

What the cluster guarantees when workers lose their connection and come back.  The
handler of `WORKER_JOIN` takes the worker that joins for idle.  In every run in
which this is so (`JoinsIdle`), results reach the island they were computed for
(`result_attribution`), and a worker has one job at a time (`one_job_at_a_time`).  If
besides the settings can always be saved and no lookup of a library throws
(`Undisturbed`), the server does not stop (`server_survives`).

A worker goes on computing while its connection is lost, and its hello message says
nothing about that.  The three runs at the end let a worker join with a job left
from before the outage; each breaks one of the guarantees.
-/

namespace Metasolver

open Exec

variable {β Algo Pop : Type}

namespace Cluster

/-- The message the controller takes deserializes. -/
def Readable (archive : Archive β Algo Pop) (s : Cluster β) : ClusterEvent β → Prop
  | .serveWorker w _ => ∀ m ∈ (s.peer w).inbound.head?,
      Controller.Deserializes archive.tracked (.fromWorker w m)
  | .serveIsland i _ => ∀ d ∈ (s.island i).toController.head?, archive.Reads d.content
  | _ => True

instance (archive : Archive β Algo Pop) (s : Cluster β) :
    (e : ClusterEvent β) → Decidable (Readable archive s e)
  | .serveWorker w _ => inferInstanceAs (Decidable (∀ m ∈ (s.peer w).inbound.head?,
      Controller.Deserializes archive.tracked (.fromWorker w m)))
  | .serveIsland i _ => inferInstanceAs
      (Decidable (∀ d ∈ (s.island i).toController.head?, archive.Reads d.content))
  | .peer _ _ => .isTrue trivial
  | .island _ _ => .isTrue trivial

/-- The handler of the message the controller takes is not interrupted. -/
def Undisturbed (archive : Archive β Algo Pop) (s : Cluster β) : ClusterEvent β → Prop
  | .serveWorker w env => ∀ m ∈ (s.peer w).inbound.head?,
      Controller.Undisturbed archive.tracked env (.fromWorker w m)
  | .serveIsland i env => ∀ d ∈ (s.island i).toController.head?,
      Controller.Undisturbed archive.tracked env (.fromIsland i (.allocateWork d))
  | _ => True

instance (archive : Archive β Algo Pop) (s : Cluster β) :
    (e : ClusterEvent β) → Decidable (Undisturbed archive s e)
  | .serveWorker w env => inferInstanceAs (Decidable (∀ m ∈ (s.peer w).inbound.head?,
      Controller.Undisturbed archive.tracked env (.fromWorker w m)))
  | .serveIsland i env => inferInstanceAs (Decidable (∀ d ∈ (s.island i).toController.head?,
      Controller.Undisturbed archive.tracked env (.fromIsland i (.allocateWork d))))
  | .peer _ _ => .isTrue trivial
  | .island _ _ => .isTrue trivial

/-- The server runs, and everything it holds deserializes. -/
def Serving (archive : Archive β Algo Pop) (s : Cluster β) : Prop :=
  ∃ c, s.session.server = .running c ∧ ∀ x ∈ c.records, archive.tracked.Reads x.2

variable {archive : Archive β Algo Pop} {env : Surroundings} {s t : Cluster β}

theorem worker_serve {msg : Incoming (Parcel β)} (h : s.serve archive env msg = some t)
    (w : WorkerId) : (t.peer w).worker = (s.peer w).worker := by
  obtain ⟨session, -, rfl⟩ := Option.map_eq_some_iff.mp h
  exact worker_deliverAll

/-- A worker process changes only by a step of its own. -/
theorem worker_step {e : ClusterEvent β} (h : s.step archive e = some t) (w : WorkerId) :
    (t.peer w).worker = (s.peer w).worker ∨
      ∃ e' p, (s.peer w).step e' = some p ∧ (t.peer w).worker = p.worker := by
  cases e with
  | peer v e =>
      obtain ⟨p, hp, rfl⟩ := Option.map_eq_some_iff.mp h
      by_cases same : w = v
      · subst same
        refine Or.inr ⟨e, p, hp, ?_⟩
        simp
      · refine Or.inl ?_
        simp [same]
  | island i e =>
      obtain ⟨x, -, rfl⟩ := Option.map_eq_some_iff.mp h
      exact Or.inl rfl
  | serveWorker v env =>
      obtain ⟨c, m, rest, -, -, h⟩ := step_serveWorker h
      refine Or.inl ((worker_serve h w).trans ?_)
      by_cases same : w = v
      · subst same
        simp
      · simp [same]
  | serveIsland i env =>
      obtain ⟨c, d, rest, -, -, h⟩ := step_serveIsland h
      exact Or.inl (worker_serve h w)

theorem Ready.serving {c : Controller (Parcel β)} {msg : Incoming (Parcel β)}
    (ready : Ready s c msg) (running : s.session.server = .running c)
    (readable : ∀ x ∈ c.records, archive.tracked.Reads x.2)
    (deserializes : Controller.Deserializes archive.tracked msg)
    (undisturbed : Controller.Undisturbed archive.tracked env msg)
    (h : s.serve archive env msg = some t) : Serving archive t := by
  have partition := ready.partition.quiet
  rcases serve_cases running h with ⟨c', handled, rfl⟩ | ⟨f, c', faulted, rfl⟩
  · refine ⟨c', by rw [session_served], fun x member => ?_⟩
    rcases Controller.records_handled_subset handled ready.alternates partition member with
      old | new
    · exact readable x old
    · rw [new] at deserializes
      exact deserializes
  · obtain ⟨c'', normal⟩ : ∃ c'', (Controller.handle archive.tracked env msg).run
        { c with sent := [] } = .ok () c'' :=
      Controller.handle_total partition readable ready.alternates ready.expected deserializes
        undisturbed
    rw [normal] at faulted
    cases faulted

theorem Inv.serving {e : ClusterEvent β} (inv : Inv s) (joinsIdle : JoinsIdle s e)
    (readable : Readable archive s e) (undisturbed : Undisturbed archive s e)
    (serving : Serving archive s) (h : s.step archive e = some t) : Serving archive t := by
  obtain ⟨c, running, reads⟩ := serving
  cases e with
  | peer w e =>
      obtain ⟨p, -, rfl⟩ := Option.map_eq_some_iff.mp h
      exact ⟨c, running, reads⟩
  | island i e =>
      obtain ⟨x, -, rfl⟩ := Option.map_eq_some_iff.mp h
      exact ⟨c, running, reads⟩
  | serveWorker w env =>
      obtain ⟨c', m, rest, running', next, h⟩ := step_serveWorker h
      obtain rfl : c = c' := Server.running.inj (running.symm.trans running')
      have ready := inv.ready_worker running next (joinsIdle.oldest next)
      exact ready.serving running reads (readable m (by rw [next]; rfl))
        (undisturbed m (by rw [next]; rfl)) h
  | serveIsland i env =>
      obtain ⟨c', d, rest, running', next, h⟩ := step_serveIsland h
      obtain rfl : c = c' := Server.running.inj (running.symm.trans running')
      have ready := inv.ready_island running next
      exact ready.serving running reads (readable d (by rw [next]; rfl))
        (undisturbed d (by rw [next]; rfl)) h

/-- The server of a run that nothing interrupts runs to the end. -/
theorem serving_run {records : UnorderedMap WorkerId WorkerInfo} {es : List (ClusterEvent β)}
    (joinsIdle : Along (Cluster.step archive) JoinsIdle (Cluster.start records) es)
    (readable : Along (Cluster.step archive) (Readable archive) (Cluster.start records) es)
    (undisturbed : Along (Cluster.step archive) (Undisturbed archive) (Cluster.start records) es)
    (run : exec (Cluster.step archive) (Cluster.start records) es = some t) :
    Inv t ∧ Serving archive t := by
  have guarded := along_and (along_and joinsIdle readable) undisturbed
  refine exec_invariant (I := fun s => Inv s ∧ Serving archive s) ?_
    ⟨Inv.start records, Controller.start records, rfl, ?_⟩ guarded run
  · rintro s e t ⟨inv, serving⟩ ⟨⟨idle, readable⟩, undisturbed⟩ h
    exact ⟨inv.step idle h, inv.serving idle readable undisturbed serving h⟩
  · intro x member
    simp [Controller.records, Controller.start] at member

end Cluster

open Cluster

/-- If no worker joins with a job left from before, then at any time the results
    passed on to an island, if it has not received them yet, were computed from the
    work data of the request it waits for. -/
theorem result_attribution (archive : Archive β Algo Pop)
    (records : UnorderedMap WorkerId WorkerInfo) (es : List (ClusterEvent β)) (t : Cluster β)
    (joinsIdle : Along (Cluster.step archive) JoinsIdle (Cluster.start records) es)
    (run : exec (Cluster.step archive) (Cluster.start records) es = some t) :
    ∀ i, ∀ binary ∈ (t.island i).inbox,
      ∃ r, (t.island i).awaiting = some r ∧ r.island = i ∧ binary.origin = some r := by
  intro i
  exact ((inv_run joinsIdle run).attributed i).own

abbrev PlainEvent := ClusterEvent (PlainPayload String Nat)

def plainWork (size : Nat) : PlainPayload String Nat := .work ⟨"de", size, "", 1⟩

/-- A worker loses its connection before its work arrives, comes back, is sent the
    same work again and returns the results. -/
def reconnectRun : List PlainEvent :=
  [.peer "worker_a" .connects, .serveWorker "worker_a" default,
    .island "island_1" (.requestsWork (plainWork 100)), .serveIsland "island_1" default,
    .peer "worker_a" (.disconnects 0), .serveWorker "worker_a" default,
    .peer "worker_a" .connects, .serveWorker "worker_a" default,
    .peer "worker_a" .workerReceives, .peer "worker_a" (.threadFinishes (plainWork 7)),
    .peer "worker_a" .threadSocketReceives, .peer "worker_a" .transmits,
    .serveWorker "worker_a" default]

theorem result_attribution_reconnect :
    ∃ t, exec (Cluster.step Archive.plain) (Cluster.start ∅) reconnectRun = some t ∧
      (t.island "island_1").inbox.length = 1 ∧
      ∀ binary ∈ (t.island "island_1").inbox, ∃ r, (t.island "island_1").awaiting = some r ∧
        r.island = "island_1" ∧ binary.origin = some r := by
  refine ⟨_, rfl, ?_, ?_⟩
  · decide
  · exact result_attribution Archive.plain ∅ reconnectRun _ (by decide) rfl "island_1"

/-- A worker that computes for one island loses its connection; the island waits.  When
    it comes back it is taken for idle and allocated to another island, and its old
    results are passed on to that one. -/
def staleResultRun : List PlainEvent :=
  [.peer "worker_a" .connects, .serveWorker "worker_a" default,
    .island "island_1" (.requestsWork (plainWork 100)), .serveIsland "island_1" default,
    .peer "worker_a" .workerReceives,
    .peer "worker_a" (.disconnects 0), .serveWorker "worker_a" default,
    .peer "worker_b" .connects, .serveWorker "worker_b" default,
    .island "island_2" (.requestsWork (plainWork 80)), .serveIsland "island_2" default,
    .peer "worker_a" .connects, .serveWorker "worker_a" default,
    .peer "worker_a" (.threadFinishes (plainWork 7)), .peer "worker_a" .threadSocketReceives,
    .peer "worker_a" .transmits, .serveWorker "worker_a" default]

theorem result_attribution_stale :
    ∃ t, exec (Cluster.step Archive.plain) (Cluster.start ∅) staleResultRun = some t ∧
      (t.island "island_2").awaiting = some ⟨"island_2", 0, plainWork 80⟩ ∧
      (t.island "island_2").inbox =
        [⟨plainWork 7, some ⟨"island_1", 0, plainWork 100⟩⟩] := by
  refine ⟨_, rfl, ?_, ?_⟩
  all_goals decide

/-- If no worker joins with a job left from before, all payloads deserialize, and neither a
    save of the settings nor the lookup of a library throws, the thread of `run_server` does
    not leave its loop. -/
theorem server_survives (archive : Archive β Algo Pop)
    (records : UnorderedMap WorkerId WorkerInfo) (es : List (ClusterEvent β)) (t : Cluster β)
    (joinsIdle : Along (Cluster.step archive) JoinsIdle (Cluster.start records) es)
    (readable : Along (Cluster.step archive) (Readable archive) (Cluster.start records) es)
    (undisturbed : Along (Cluster.step archive) (Undisturbed archive) (Cluster.start records) es)
    (run : exec (Cluster.step archive) (Cluster.start records) es = some t) :
    ∃ c, t.session.server = .running c := by
  obtain ⟨-, c, running, -⟩ := serving_run joinsIdle readable undisturbed run
  exact ⟨c, running⟩

theorem server_survives_reconnect :
    ∃ t, exec (Cluster.step Archive.plain) (Cluster.start ∅) reconnectRun = some t ∧
      ∃ c, t.session.server = .running c :=
  ⟨_, rfl, server_survives Archive.plain ∅ reconnectRun _ (by decide) (by decide) (by decide)
    rfl⟩

/-- A worker finishes its job while its connection is lost and another worker has
    taken the job over.  It comes back, is taken for idle, and its results find no
    record in `_workAllocationMap`. -/
def lateResultRun : List PlainEvent :=
  [.peer "worker_a" .connects, .serveWorker "worker_a" default,
    .peer "worker_b" .connects, .serveWorker "worker_b" default,
    .island "island_1" (.requestsWork (plainWork 100)), .serveIsland "island_1" default,
    .peer "worker_a" .workerReceives,
    .peer "worker_a" (.disconnects 0), .serveWorker "worker_a" default,
    .peer "worker_a" (.threadFinishes (plainWork 7)), .peer "worker_a" .threadSocketReceives,
    .peer "worker_a" .connects, .serveWorker "worker_a" default,
    .peer "worker_a" .transmits, .serveWorker "worker_a" default]

theorem server_stops_on_late_result :
    Along (Cluster.step Archive.plain) (Readable Archive.plain) (Cluster.start ∅) lateResultRun ∧
      ∃ t c, exec (Cluster.step Archive.plain) (Cluster.start ∅) lateResultRun = some t ∧
        t.session.server = .stopped (.exception .outOfRange) c := by
  refine ⟨?_, _, _, rfl, rfl⟩
  decide

/-- If no worker joins with a job left from before, work that a worker is about to
    handle finds its thread not joinable, results that it is about to take from its
    thread find the thread joinable, and neither has ever gone wrong. -/
theorem one_job_at_a_time (archive : Archive β Algo Pop)
    (records : UnorderedMap WorkerId WorkerInfo) (es : List (ClusterEvent β)) (t : Cluster β)
    (joinsIdle : Along (Cluster.step archive) JoinsIdle (Cluster.start records) es)
    (run : exec (Cluster.step archive) (Cluster.start records) es = some t) :
    ∀ w, (t.peer w).worker.fault = none ∧
      (∀ workData rest, (t.peer w).outbound = .allocateWork workData :: rest →
        (t.peer w).worker.workerThread.joinable = false) ∧
      (∀ binary rest, (t.peer w).worker.threadSocket = .workResults binary :: rest →
        (t.peer w).worker.workerThread.joinable = true) := by
  intro w
  have sound := (inv_run joinsIdle run).sound w
  refine ⟨sound.alive, fun workData rest next => sound.idle next, fun binary rest next => ?_⟩
  exact sound.threadOk.joinable next

theorem one_job_at_a_time_reconnect :
    ∃ t, exec (Cluster.step Archive.plain) (Cluster.start ∅) reconnectRun = some t ∧
      (t.peer "worker_a").worker.fault = none :=
  ⟨_, rfl, (one_job_at_a_time Archive.plain ∅ reconnectRun _ (by decide) rfl "worker_a").1⟩

/-- In every run, whichever workers join with which jobs: results that the main loop
    is about to take from its thread find the thread joinable, so `join` returns. -/
theorem join_returns (archive : Archive β Algo Pop) (records : UnorderedMap WorkerId WorkerInfo)
    (es : List (ClusterEvent β)) (t : Cluster β)
    (run : exec (Cluster.step archive) (Cluster.start records) es = some t) :
    ∀ w, (t.peer w).worker.fault ≠ some .systemError ∧
      ∀ binary rest, (t.peer w).worker.threadSocket = .workResults binary :: rest →
        (t.peer w).worker.workerThread.joinable = true := by
  have kept : ∀ w, Peer.Joins (t.peer w).worker := by
    refine exec_invariant_of_step (I := fun s => ∀ w, Peer.Joins (s.peer w).worker) ?_ ?_ run
    · intro s e t joins h w
      rcases worker_step h w with same | ⟨e', p, hp, moved⟩
      · rw [same]
        exact joins w
      · rw [moved]
        exact (joins w).step hp
    · intro w
      exact ⟨Worker.threadOk_start, by simp [Cluster.start]⟩
  intro w
  refine ⟨(kept w).returned, ?_⟩
  intro binary rest next
  exact (kept w).threadOk.joinable next

/-- A worker loses its connection and comes back while its thread is running.  Its own
    request waits for a worker, so it is sent the work a second time. -/
def secondJobRun : List PlainEvent :=
  [.peer "worker_a" .connects, .serveWorker "worker_a" default,
    .island "island_1" (.requestsWork (plainWork 100)), .serveIsland "island_1" default,
    .peer "worker_a" .workerReceives,
    .peer "worker_a" (.disconnects 0), .peer "worker_a" .connects,
    .serveWorker "worker_a" default, .serveWorker "worker_a" default]

theorem join_returns_second_job :
    ∃ t, exec (Cluster.step Archive.plain) (Cluster.start ∅) secondJobRun = some t ∧
      (t.peer "worker_a").worker.fault ≠ some .systemError :=
  ⟨_, rfl, (join_returns Archive.plain ∅ secondJobRun _ rfl "worker_a").1⟩

theorem second_job_terminates :
    ∃ t u workData, exec (Cluster.step Archive.plain) (Cluster.start ∅) secondJobRun = some t ∧
      (t.peer "worker_a").outbound = [.allocateWork workData] ∧
      (t.peer "worker_a").worker.workerThread.joinable = true ∧
      t.step Archive.plain (.peer "worker_a" .workerReceives) = some u ∧
      (u.peer "worker_a").worker.fault = some .terminate := by
  refine ⟨_, _, _, rfl, rfl, rfl, rfl, ?_⟩
  decide

end Metasolver
