import Metasolver.Controller.Session
import Metasolver.Lib.Effects

/-!
# The calls on the repository

The server thread changes the repository by four calls, each under the mutex.  The thread
of the solver reads it in between, so what it finds at one reading may be later
than what it found at the one before by any number of calls (`Later`).  A record is
never removed, and a worker is connected only with a record.

Every handler of the controller touches the repository through these calls only
(`byCalls_handle`), so the repository of a running server is later than the one it
started with.
-/

namespace Metasolver

open Effects

namespace WorkerInfoRepository

/-- A call by which the server thread changes the repository. -/
inductive Call where
  | workerJoined (workerID : WorkerId) (info : WorkerInfo)
  | workerLeft (workerID : WorkerId)
  | workerStartedWork (workerID : WorkerId) (now : TimePoint)
  | workerFinishedWork (workerID : WorkerId) (processedPopulation : Nat) (algoName : String)
      (now : TimePoint)

/-- What the call does; if it throws, it changes nothing. -/
def call (repo : WorkerInfoRepository) : Call → Except Exn WorkerInfoRepository
  | .workerJoined workerID info => .ok (repo.workerJoined workerID info)
  | .workerLeft workerID => .ok (repo.workerLeft workerID)
  | .workerStartedWork workerID now => repo.workerStartedWork workerID now
  | .workerFinishedWork workerID processedPopulation algoName now =>
      repo.workerFinishedWork workerID processedPopulation algoName now

/-- The repository after one call. -/
def Next (repo repo' : WorkerInfoRepository) : Prop := ∃ c, repo.call c = .ok repo'

/-- The repository after any number of calls. -/
def Later : WorkerInfoRepository → WorkerInfoRepository → Prop := Relation.ReflTransGen Next

/-- Every connected worker has a record. -/
def Recorded (repo : WorkerInfoRepository) : Prop :=
  ∀ w ∈ repo.connectedWorkers, w ∈ repo.workerRecords

variable {repo repo' : WorkerInfoRepository} {w : WorkerId}

theorem Next.keeps_record (h : Next repo repo') (record : w ∈ repo.workerRecords) :
    w ∈ repo'.workerRecords := by
  obtain ⟨c, run⟩ := h
  cases c with
  | workerJoined v info =>
      obtain rfl := Except.ok.inj run
      exact mem_workerRecords_workerJoined.mpr (Or.inr record)
  | workerLeft v =>
      obtain rfl := Except.ok.inj run
      exact record
  | workerStartedWork v now => exact ((modifyRecord_ok run).2.2 w).mpr record
  | workerFinishedWork v processed algoName now =>
      exact ((modifyRecord_ok run).2.2 w).mpr record

theorem Next.recorded (h : Next repo repo') (recorded : Recorded repo) : Recorded repo' := by
  have keeps : ∀ v, v ∈ repo.workerRecords → v ∈ repo'.workerRecords := fun _ => h.keeps_record
  obtain ⟨c, run⟩ := h
  intro w connected
  cases c with
  | workerJoined v info =>
      obtain rfl := Except.ok.inj run
      rw [connectedWorkers_workerJoined, Finset.mem_insert] at connected
      rw [mem_workerRecords_workerJoined]
      exact connected.imp_right (recorded w)
  | workerLeft v =>
      obtain rfl := Except.ok.inj run
      exact recorded w (Finset.mem_of_mem_erase connected)
  | workerStartedWork v now =>
      rw [(modifyRecord_ok run).2.1] at connected
      exact keeps w (recorded w connected)
  | workerFinishedWork v processed algoName now =>
      rw [(modifyRecord_ok run).2.1] at connected
      exact keeps w (recorded w connected)

theorem Later.keeps_record (h : Later repo repo') (record : w ∈ repo.workerRecords) :
    w ∈ repo'.workerRecords := by
  induction h with
  | refl => exact record
  | tail _ next ih => exact next.keeps_record ih

theorem Later.recorded (h : Later repo repo') (recorded : Recorded repo) : Recorded repo' := by
  induction h with
  | refl => exact recorded
  | tail _ next ih => exact next.recorded ih

/-- The repository of a controller that has just been constructed. -/
theorem recorded_start (records : UnorderedMap WorkerId WorkerInfo) : Recorded ⟨∅, records⟩ :=
  fun _ connected => absurd connected (Finset.notMem_empty _)

end WorkerInfoRepository

namespace Controller

variable {β Algo Pop : Type} {archive : Archive β Algo Pop} {env : Surroundings}
  {c : Controller β}

/-- One assignment of a handler: a call on the repository, or something else. -/
def Touches (c c' : Controller β) : Prop :=
  c'.workerInfo = c.workerInfo ∨ c.workerInfo.Next c'.workerInfo

/-- The program touches the repository by its calls only. -/
def ByCalls {α : Type} (x : ControllerM β α) : Prop :=
  ∀ c, Acts Touches x c fun _ _ => True

theorem ByCalls.bind {α γ : Type} {x : ControllerM β α} {f : α → ControllerM β γ}
    (first : ByCalls x) (rest : ∀ a, ByCalls (f a)) : ByCalls (x >>= f) :=
  fun c => (first c).bind fun a t _ => rest a t

theorem ByCalls.pure {α : Type} {a : α} : ByCalls (Pure.pure a : ControllerM β α) :=
  fun _ => .pure trivial

theorem ByCalls.throw {α : Type} {f : Fault} : ByCalls (MonadExcept.throw f : ControllerM β α) :=
  fun _ => .throw

theorem ByCalls.get : ByCalls (MonadState.get : ControllerM β (Controller β)) :=
  fun _ => Acts.get.weaken fun _ _ _ => trivial

theorem ByCalls.modify {change : Controller β → Controller β}
    (other : ∀ c, (change c).workerInfo = c.workerInfo) :
    ByCalls (MonadState.modifyGet fun c => ((), change c) : ControllerM β Unit) :=
  fun c => .modify (Or.inl (other c)) trivial

theorem ByCalls.orThrow {α : Type} (x : Except Exn α) : ByCalls (orThrow x : ControllerM β α) := by
  cases x with
  | ok a => exact .pure
  | error e => exact .throw

theorem ByCalls.deref {α : Type} (x : Option α) : ByCalls (deref x : ControllerM β α) := by
  cases x with
  | some a => exact .pure
  | none => exact .throw

theorem ByCalls.send (message : Sent β) : ByCalls (send message) := .modify fun _ => rfl

/-- A call on the repository is one of the four. -/
theorem ByCalls.onWorkerInfo {save : Except Exn Unit}
    {call : WorkerInfoRepository → Except Exn WorkerInfoRepository}
    (named : ∃ k : WorkerInfoRepository.Call, ∀ repo, call repo = repo.call k) :
    ByCalls (onWorkerInfo save call : ControllerM β Unit) := by
  obtain ⟨k, named⟩ := named
  refine ByCalls.bind (.orThrow save) fun _ => ?_
  intro c
  apply Acts.get_bind
  cases run : call c.workerInfo with
  | error e => exact Acts.throw
  | ok repo =>
      rw [named] at run
      exact .modify (Or.inr ⟨k, run⟩) trivial

/-! ## The handlers -/

theorem byCalls_allocateWorkerToIsland (i : IslandId) (d : β) :
    ByCalls (allocateWorkerToIsland archive env i d) := by
  refine ByCalls.bind (.orThrow _) fun serializedData => ?_
  refine ByCalls.bind .get fun c => ?_
  refine ByCalls.bind (.deref _) fun first => ?_
  refine ByCalls.bind .get fun c => ?_
  have allocates : ∀ chosen, ByCalls (do
      modify fun c : Controller β => { c with
        freeWorkersPool := c.freeWorkersPool.erase chosen
        workAllocationMap := UnorderedMap.emplace chosen ⟨i, d⟩ c.workAllocationMap }
      Controller.onWorkerInfo env.startSave fun repo =>
        repo.workerStartedWork chosen env.startTime
      Controller.send (.toWorker chosen (.allocateWork d))) := by
    intro chosen
    refine ByCalls.bind (.modify fun _ => rfl) fun _ => ?_
    exact ByCalls.bind (.onWorkerInfo ⟨.workerStartedWork chosen env.startTime, fun _ => rfl⟩)
      fun _ => .send _
  split
  · exact allocates _
  · exact allocates _

theorem byCalls_allocateIslandWork (i : IslandId) (d : β) :
    ByCalls (allocateIslandWork archive env i d) := by
  refine ByCalls.bind .get fun c => ?_
  split
  · exact .modify fun _ => rfl
  · exact byCalls_allocateWorkerToIsland i d

theorem byCalls_popWaitingIsland : ByCalls (popWaitingIsland env : ControllerM β _) := by
  refine ByCalls.bind .get fun c => ?_
  refine ByCalls.bind (.deref _) fun islandRecord => ?_
  exact ByCalls.bind (.modify fun _ => rfl) fun _ => .pure

theorem byCalls_addFreeWorker (w : WorkerId) : ByCalls (addFreeWorker archive env w) := by
  refine ByCalls.bind (.modify fun _ => rfl) fun _ => ?_
  refine ByCalls.bind .get fun c => ?_
  split
  · exact ByCalls.bind byCalls_popWaitingIsland fun p => byCalls_allocateWorkerToIsland p.1 p.2
  · exact .pure

/-- Every handler touches the repository by its calls only, whether it ends normally or
    not. -/
theorem byCalls_handle (msg : Incoming β) : ByCalls (handle archive env msg) := by
  cases msg with
  | fromIsland i msg =>
      cases msg with
      | allocateWork d => exact byCalls_allocateIslandWork i d
      | unhandled type payload => exact .pure
  | fromWorker w msg =>
      cases msg with
      | workerJoin =>
          refine ByCalls.bind .get fun c => ?_
          split
          · exact .pure
          · exact ByCalls.bind (.onWorkerInfo ⟨.workerJoined w {}, fun _ => rfl⟩) fun _ =>
              byCalls_addFreeWorker w
      | workerLeave =>
          refine ByCalls.bind (.modify fun _ => rfl) fun _ => ?_
          refine ByCalls.bind (.onWorkerInfo ⟨.workerLeft w, fun _ => rfl⟩) fun _ => ?_
          refine ByCalls.bind .get fun c => ?_
          split
          · exact .pure
          · exact ByCalls.bind (.modify fun _ => rfl) fun _ => byCalls_allocateIslandWork _ _
      | workResults binary =>
          refine ByCalls.bind (.orThrow _) fun results => ?_
          refine ByCalls.bind (.onWorkerInfo ⟨.workerFinishedWork w (archive.size results.pop)
            (archive.getName results.algo) env.finishTime, fun _ => rfl⟩) fun _ => ?_
          refine ByCalls.bind .get fun c => ?_
          split
          · exact .throw
          · refine ByCalls.bind (.send _) fun _ => ?_
            exact ByCalls.bind (.modify fun _ => rfl) fun _ => byCalls_addFreeWorker w
      | getDll binary =>
          refine ByCalls.bind (.orThrow _) fun _ => ?_
          exact ByCalls.bind (.orThrow _) fun _ => .send _
      | unhandled type payload => exact .pure

/-- One message leaves a later repository. -/
theorem later_handle (msg : Incoming β) :
    c.workerInfo.Later (final ((handle archive env msg).run c)).workerInfo := by
  apply (byCalls_handle msg c).invariant (I := fun c' => c.workerInfo.Later c'.workerInfo)
  · intro c₁ c₂ touched later
    rcases touched with same | next
    · rw [same]
      exact later
    · exact later.tail next
  · exact Relation.ReflTransGen.refl

end Controller

namespace Session

variable {β Algo Pop : Type} {archive : Archive β Algo Pop}

/-- The repository of the server, running or stopped. -/
def repository (s : Session β) : WorkerInfoRepository :=
  match s.server with
  | .running c => c.workerInfo
  | .stopped _ c => c.workerInfo

/-- One message: the running server handles it, and goes on if the handler ends normally. -/
theorem step_cases {s s' : Session β} {e : Delivery β} (h : step archive s e = some s') :
    ∃ c, s.server = .running c ∧
      s'.server.controller =
        final ((Controller.handle archive e.env e.msg).run { c with sent := [] }) ∧
      s'.log = record s.log e.msg s'.server.controller ∧
      ∀ c', s'.server = .running c' →
        (Controller.handle archive e.env e.msg).run { c with sent := [] } = .ok () c' := by
  unfold step at h
  split at h
  case h_1 => cases h
  case h_2 c running =>
    refine ⟨c, running, ?_⟩
    cases run : (Controller.handle archive e.env e.msg).run { c with sent := [] } with
    | ok u c' =>
        rw [run] at h
        obtain rfl := Option.some.inj h
        refine ⟨rfl, rfl, fun c'' same => ?_⟩
        cases same
        rfl
    | error f c' =>
        rw [run] at h
        obtain rfl := Option.some.inj h
        refine ⟨rfl, rfl, fun c'' same => ?_⟩
        cases same

theorem repository_eq (s : Session β) : s.repository = s.server.controller.workerInfo := by
  rw [repository]
  cases s.server <;> rfl

theorem later_step {s s' : Session β} {e : Delivery β} (h : step archive s e = some s') :
    s.repository.Later s'.repository := by
  obtain ⟨c, running, ends, -, -⟩ := step_cases h
  rw [repository_eq, repository_eq, running, ends]
  exact Controller.later_handle (c := { c with sent := [] }) e.msg

/-- Whatever messages arrive, the repository is later than it was. -/
theorem later_exec {s s' : Session β} {es : List (Delivery β)}
    (h : Exec.exec (step archive) s es = some s') : s.repository.Later s'.repository := by
  apply Exec.exec_invariant_of_step (I := fun t : Session β =>
    s.repository.Later t.repository) _ _ h
  · intro t e u later run
    exact later.trans (later_step run)
  · exact Relation.ReflTransGen.refl

end Session

end Metasolver
