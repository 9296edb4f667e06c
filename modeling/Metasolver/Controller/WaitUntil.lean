import Metasolver.Lib.Monitor
import Metasolver.Controller.Statistics

/-!
# `wait_until_worker_count`

The threads of the server and of the solver share the repository.  Each of its functions holds
`_mtx` while it looks at the data; `worker_joined` and `worker_left` call
`_cv.notify_all()` after they have let go of it, and `wait_until_worker_count` waits on `_cv`
(`worker_info_repository.cpp`).  Here every lock, wait, notification and spurious wakeup is a
step, so the repository is a monitor.

The other two functions that change something do not notify.  They cannot change the number
of connected workers (`getWorkerCount_perform`), which is all that is waited for.
-/

namespace Metasolver

open Exec Monitor

namespace WorkerInfoRepository

/-- A function that locks `_mtx` and does not wait on `_cv`. -/
inductive LockedCall where
  | call (c : Call)
  | getWorkerInfo (workerID : WorkerId)
  | getConnectedWorkers
  | getWorkerCount

/-- What it does to the repository, whether it returns or throws. -/
def LockedCall.run (repo : WorkerInfoRepository) : LockedCall → WorkerInfoRepository
  | .call c => repo.perform c
  | .getWorkerInfo _ => repo
  | .getConnectedWorkers => repo
  | .getWorkerCount => repo

/-- `_cv.notify_all()` follows. -/
def LockedCall.notifies : LockedCall → Bool
  | .call (.workerJoined _ _) => true
  | .call (.workerLeft _) => true
  | _ => false

variable {repo repo' : WorkerInfoRepository} {c : Call}

/-- A call that throws changes nothing, and one that does not is a call. -/
theorem later_perform (repo : WorkerInfoRepository) (c : Call) : repo.Later (repo.perform c) := by
  unfold perform
  cases called : repo.call c with
  | ok repo' => exact Relation.ReflTransGen.single ⟨c, called⟩
  | error e => exact Relation.ReflTransGen.refl

theorem later_run (repo : WorkerInfoRepository) (op : LockedCall) :
    repo.Later (op.run repo) := by
  cases op with
  | call c => exact later_perform repo c
  | _ => exact Relation.ReflTransGen.refl

/-- Work that starts or ends connects and disconnects nobody. -/
theorem getWorkerCount_perform (silent : LockedCall.notifies (.call c) = false) :
    (repo.perform c).getWorkerCount = repo.getWorkerCount := by
  unfold perform
  cases called : repo.call c with
  | error e => rfl
  | ok repo' =>
      cases c with
      | workerJoined w info => cases silent
      | workerLeft w => cases silent
      | workerStartedWork w now =>
          exact congrArg Finset.card (modifyRecord_ok called).2.1
      | workerFinishedWork w processed algoName now =>
          exact congrArg Finset.card (modifyRecord_ok called).2.1

/-- `_mtx`, `_cv` and what they protect.  The argument of `wait_until_worker_count` is the
    goal. -/
def monitor : Interface WorkerInfoRepository LockedCall Nat where
  run := LockedCall.run
  notifies := LockedCall.notifies
  met target repo := decide (target ≤ repo.getWorkerCount)
  silent repo op target silent met := by
    cases op with
    | call c =>
        rw [decide_eq_true_eq] at met ⊢
        rwa [LockedCall.run, getWorkerCount_perform silent] at met
    | _ => exact met

section Runs

variable {T : Type} [DecidableEq T] {s s' : State T WorkerInfoRepository LockedCall Nat}
  {es : List (Event T LockedCall Nat)} {e : Event T LockedCall Nat}

theorem sound_run (run : exec monitor.step (Monitor.start repo) es = some s) :
    Sound monitor s :=
  exec_invariant_of_step (fun _ _ _ sound h => sound.step h) (Sound.start monitor repo) run

theorem later_step (h : monitor.step s e = some s') : s.data.Later s'.data := by
  cases Interface.step_cases h with
  | changes t op within => exact later_run s.data op
  | _ => exact Relation.ReflTransGen.refl

/-- Whatever the threads do, the repository changes by whole calls. -/
theorem later_exec (run : exec monitor.step s es = some s') : s.data.Later s'.data := by
  have kept : ∀ (u : State T WorkerInfoRepository LockedCall Nat) e u', s.data.Later u.data →
      monitor.step u e = some u' → s.data.Later u'.data := by
    intro u e u' before h
    exact Relation.ReflTransGen.trans before (later_step h)
  have now : s.data.Later s.data := Relation.ReflTransGen.refl
  exact exec_invariant_of_step (I := fun u => s.data.Later u.data) kept now run

end Runs

end WorkerInfoRepository

open WorkerInfoRepository

variable {T : Type} [DecidableEq T]

/-- Whatever the other threads do, so many workers are connected when
    `wait_until_worker_count` lets go of the mutex to return, and all of them have a record. -/
theorem wait_until_worker_count_returns (records : UnorderedMap WorkerId WorkerInfo)
    (es : List (Event T LockedCall Nat)) (s : State T WorkerInfoRepository LockedCall Nat)
    (run : exec monitor.step (Monitor.start ⟨∅, records⟩) es = some s)
    (t : T) (target : Nat) (returns : s.phase t = .leaving (.await target)) :
    s.owner = some t ∧ target ≤ s.data.getWorkerCount ∧ s.data.Recorded := by
  have sound := sound_run run
  refine ⟨?_, of_decide_eq_true (sound.met t target returns), ?_⟩
  · apply (sound.owner t).mp
    rw [returns]
    rfl
  · exact (later_exec run).recorded (recorded_start records)

/-- The solver waits for a worker, and is woken when one has joined. -/
def joinedLaterRun : List (Event Nat LockedCall Nat) :=
  [.calls 0 (.await 1), .locks 0, .runs 0, .calls 1 (.change (.call (.workerJoined "w" {}))),
    .locks 1, .runs 1, .unlocks 1, .notifies 1, .locks 0, .runs 0]

theorem wait_until_worker_count_returns_joined_later :
    ∃ s, exec monitor.step (Monitor.start ⟨∅, ∅⟩) joinedLaterRun = some s ∧
      s.phase 0 = .leaving (.await 1) ∧
      s.owner = some 0 ∧ 1 ≤ s.data.getWorkerCount ∧ s.data.Recorded :=
  ⟨_, rfl, rfl, wait_until_worker_count_returns ∅ joinedLaterRun _ rfl 0 1 rfl⟩

/-- However the threads interleave, a wakeup is never missed: after at most so many steps no
    thread can go on by itself, and then whoever is still in `wait_until_worker_count` is asleep
    and fewer workers are connected than it waits for. -/
theorem no_wakeup_missed (records : UnorderedMap WorkerId WorkerInfo)
    (es : List (Event T LockedCall Nat)) (s : State T WorkerInfoRepository LockedCall Nat)
    (run : exec monitor.step (Monitor.start ⟨∅, records⟩) es = some s) :
    (es.map Event.gain).sum ≤
        (es.map (Event.price (es.map Event.thread).toFinset.card)).sum ∧
      (AtRest monitor s → ∀ t, s.phase t = .outside ∨
        ∃ target, s.phase t = .asleep target ∧ s.data.getWorkerCount < target) := by
  constructor
  · apply steps_le _ _ run
    intro e member
    exact List.mem_toFinset.mpr (List.mem_map_of_mem member)
  · intro atRest t
    rcases atRest.phase_eq (sound_run run) t with idle | ⟨target, sleeps, unmet⟩
    · exact Or.inl idle
    · refine Or.inr ⟨target, sleeps, ?_⟩
      have few : ¬ target ≤ s.data.getWorkerCount := of_decide_eq_false unmet
      omega

/-- It waits for two workers, is woken when one has joined, and falls asleep again. -/
def joinedAloneRun : List (Event Nat LockedCall Nat) :=
  [.calls 0 (.await 2), .locks 0, .runs 0, .calls 1 (.change (.call (.workerJoined "w" {}))),
    .locks 1, .runs 1, .unlocks 1, .notifies 1, .locks 0, .runs 0]

theorem no_wakeup_missed_joined_alone :
    ∃ s, exec monitor.step (Monitor.start ⟨∅, ∅⟩) joinedAloneRun = some s ∧
      (joinedAloneRun.map Event.gain).sum ≤
        (joinedAloneRun.map
          (Event.price (joinedAloneRun.map Event.thread).toFinset.card)).sum ∧
      AtRest monitor s ∧ s.phase 0 = .asleep 2 ∧ s.data.getWorkerCount < 2 := by
  obtain ⟨s, run, phase⟩ : ∃ s, exec monitor.step (Monitor.start ⟨∅, ∅⟩)
      joinedAloneRun = some s ∧
      ∀ t, s.phase t = if t = 0 then .asleep 2 else .outside := by
    refine ⟨_, rfl, fun t => ?_⟩
    by_cases solver : t = 0
    · subst solver
      rfl
    · by_cases other : t = 1
      · subst other
        rfl
      · simp [Function.update_of_ne, solver, other, Phase.woken, Monitor.start]
  have atRest : AtRest monitor s := by
    intro e internal
    cases e with
    | calls t call => cases internal
    | wakes t => cases internal
    | locks t | runs t | unlocks t | notifies t =>
        simp only [Interface.step, phase]
        by_cases solver : t = 0 <;> simp [solver]
  obtain ⟨bound, rest⟩ := no_wakeup_missed ∅ joinedAloneRun s run
  refine ⟨s, run, bound, atRest, ?_⟩
  have asleep : s.phase 0 = .asleep 2 := phase 0
  rcases rest atRest 0 with outside | ⟨target, sleeps, few⟩
  · rw [asleep] at outside
    cases outside
  · rw [asleep] at sleeps
    obtain rfl := Phase.asleep.inj sleeps
    exact ⟨asleep, few⟩

end Metasolver
