import Metasolver.Solver.PlanSafety
import Metasolver.Worker.WorkerThread

/-!
# The solver from one evolution to the next

`distributed_solver` over its whole life (`distributed_solver.cpp:10-22`, `160-211`): initial
hints are set, an evolution is started, its islands go through their cycles one by one on
whatever workers they get, and the best individual is asked for at any time.  The calls of
`evolve` are refused while an evolution is running, and may fail halfway through the islands.

The steps of the islands and those of the calling thread come in any order.  Once `evolve`
has found no task running, only the calling thread acts until it starts new ones, so the rest
of the call is one step.

On a problem with one objective and without constraints, the best individual of the
archipelago is never worse than a hint that was given to one of its islands
(`best_not_worse_than_hints`).  The hints an archipelago is made with have been set since the
last evolution started (`Solver.hintsFrom_run`).
-/

namespace Metasolver

open Exec Dealing Picking

variable {D M Algo : Type}

/-- A `pagmo::problem`, whose fitness throws at decision vectors of another length. -/
structure SolverProblem (D : Type) extends JobProblem D where
  nx : Nat

/-- What `evolve` is called with. -/
structure EvolveCall (D Algo : Type) where
  problem : SolverProblem D
  algorithms : List Algo
  populationSize : UInt64
  cycleCount : Nat := 1
  minIslandPopSize : UInt64 := 80

/-- A `pagmo::island` around a `distributed_island`, with its evolve task.  It has its task
    behind it before it gets one. -/
structure SolverIsland (D Algo : Type) where
  problem : SolverProblem D
  isl : PagmoIsland D Algo
  preferredWorkerId : WorkerId
  cycleCount : Nat
  /-- The cycles the task has still to go through. -/
  cyclesLeft : Nat
  task : Task

def SolverIsland.evolving (isl : SolverIsland D Algo) : EvolvingIsland D :=
  ⟨isl.isl.pop, isl.task⟩

/-- Where the calling thread is. -/
inductive SolverPoint (D Algo : Type) where
  /-- In no call of `evolve`. -/
  | outside
  /-- About to evaluate `_archipelago.status() == busy`. -/
  | firstStatus (call : EvolveCall D Algo)
  /-- About to evaluate `_archipelago.status() == busy_error`. -/
  | secondStatus (call : EvolveCall D Algo)
  /-- Past the guard. -/
  | build (call : EvolveCall D Algo)
  /-- The plan was undefined. -/
  | undefined

/-- `distributed_solver`. -/
structure Solver (D Algo : Type) where
  initialHints : List (VectorDouble D) := []
  archipelago : List (SolverIsland D Algo) := []
  point : SolverPoint D Algo := .outside

/-- What the constructor is given, and the names of the algorithms. -/
structure SolverSettings (M Algo : Type) where
  arith : DoubleArith M
  expectedWorkerCount : UInt64 := 1
  loadBalancingStrategy : LoadBalancingStrategy := .byPerformance
  getName : Algo → String

/-- What `evolve` meets: the workers, the order of the set, and the seeds of the populations. -/
structure Planning where
  readings : Readings
  order : IterationOrder WorkerId
  seeds : Nat → UInt32

/-- What happens on an island while its task is running. -/
inductive TaskEvent (D Algo : Type) where
  /-- Individuals of other islands come into the population. -/
  | immigrate (pop : Population D)
  /-- `run_evolve` ends with the results of a worker. -/
  | cycle (worker : JobWorker D Algo)
  /-- `run_evolve` throws. -/
  | fails (what : String)
  /-- The cycles are over. -/
  | ends

inductive SolverEvent (D Algo : Type) where
  | setInitialHints (hints : List (VectorDouble D))
  /-- A call of `evolve` begins. -/
  | evolve (call : EvolveCall D Algo)
  /-- The calling thread reads the status. -/
  | next
  /-- The calling thread makes the archipelago. -/
  | build (planning : Planning)
  | island (k : Nat) (e : TaskEvent D Algo)

/-! ## Making the islands -/

/-- `population::set_x`; nothing is returned when the fitness throws. -/
def SolverProblem.setX (problem : SolverProblem D) (pop : Population D) (i : Nat)
    (x : VectorDouble D) : Option (Population D) :=
  if x.length = problem.nx then some (pop.setX problem.functions i x) else none

/-- The loop of `_set_island_hints`, with the hints that are left. -/
def setHints (problem : SolverProblem D) (initialHints : List (VectorDouble D)) :
    (left i : Nat) → Population D → Option (Population D)
  | 0, _, pop => some pop
  | left + 1, i, pop => do
      let hint ← initialHints[i]?
      setHints problem initialHints left (i + 1) (← problem.setX pop i hint)

/-- `_set_island_hints` (`distributed_solver.cpp:10-22`). -/
def setIslandHints (problem : SolverProblem D) (initialHints : List (VectorDouble D))
    (pop : Population D) : Option (Population D) :=
  if initialHints.isEmpty then some pop
  else setHints problem initialHints (min initialHints.length pop.size) 0 pop

/-- The loop over the islands (`distributed_solver.cpp:191-200`), with the islands that are
    left: those that are made before an exception, and whether there is none. -/
def makeSolverIslands (call : EvolveCall D Algo) (initialHints : List (VectorDouble D))
    (seeds : Nat → UInt32) (workPlan : List (PlanEntry Algo)) :
    (left i : Nat) → List (SolverIsland D Algo) × Bool
  | 0, _ => ([], true)
  | left + 1, i =>
      match workPlan[i]? with
      | none => ([], false)
      | some entry =>
          match setIslandHints call.problem initialHints
              (.random call.problem.functions entry.populationSize (seeds i)) with
          | none => ([], false)
          | some pop =>
              let (made, whole) :=
                makeSolverIslands call initialHints seeds workPlan left (i + 1)
              (⟨call.problem, ⟨entry.algorithm, pop, seeds i⟩, entry.preferredWorkerId,
                entry.cycleCount, 0, .finished⟩ :: made, whole)

namespace SolverIsland

/-- `_archipelago.evolve(cycleCount)`. -/
def started (cycleCount : Nat) (isl : SolverIsland D Algo) : SolverIsland D Algo :=
  { isl with cyclesLeft := cycleCount, task := .running }

variable [LT D] [DecidableLT D]

/-- One step of a running task.  A worker whose thread throws sends no results
    (`distributed_worker.cpp:213-224`), so a cycle ends with those of one whose thread does
    not. -/
def step (isl : SolverIsland D Algo) : TaskEvent D Algo → Option (SolverIsland D Algo)
  | .immigrate pop => some { isl with isl := { isl.isl with pop := pop } }
  | .cycle worker =>
      match isl.cyclesLeft, workerThread isl.problem.toJobProblem worker isl.isl
          isl.cycleCount with
      | left + 1, .ok results => some { isl with isl := results, cyclesLeft := left }
      | _, _ => none
  | .fails what => some { isl with task := .failed what }
  | .ends => if isl.cyclesLeft = 0 then some { isl with task := .finished } else none

end SolverIsland

namespace Solver

/-- `evolve` past its guard (`distributed_solver.cpp:181-205`).  The old archipelago is gone
    in any case, the hints only if no exception is thrown. -/
def build (settings : SolverSettings M Algo) (s : Solver D Algo) (call : EvolveCall D Algo)
    (planning : Planning) : Solver D Algo :=
  let optimalIslandCount :=
    optimalIslandCount planning.readings settings.expectedWorkerCount
  let workPlan := generateWorkPlan settings.arith planning.order settings.loadBalancingStrategy
    planning.readings.atConnected.getConnectedWorkers
    (fun i w => (planning.readings.atInfo i w).getWorkerInfo w) settings.getName
    optimalIslandCount call.populationSize call.algorithms call.minIslandPopSize
  match workPlan with
  | .error .undefinedBehaviour => { s with archipelago := [], point := .undefined }
  | .error (.exception _) => { s with archipelago := [], point := .outside }
  | .ok workPlan =>
      match makeSolverIslands call s.initialHints planning.seeds workPlan
          optimalIslandCount.toNat 0 with
      | (made, false) => { s with archipelago := made, point := .outside }
      | (made, true) =>
          { initialHints := [], archipelago := made.map (.started call.cycleCount),
            point := .outside }

/-- `get_status`. -/
def status (s : Solver D Algo) : EvolveStatus :=
  Metasolver.status (s.archipelago.map SolverIsland.evolving)

variable [LT D] [DecidableLT D]

/-- `get_best_individual`, with the problem of the first island. -/
def getBestIndividual (s : Solver D Algo) : Option (VectorDouble D) :=
  match s.archipelago with
  | [] => some []
  | first :: _ => Metasolver.getBestIndividual first.problem.ranking first.problem.prob
      (s.archipelago.map fun isl => isl.isl.pop)

def step (settings : SolverSettings M Algo) (s : Solver D Algo) :
    SolverEvent D Algo → Option (Solver D Algo)
  | .setInitialHints hints =>
      match s.point with
      | .outside => some { s with initialHints := hints }
      | _ => none
  | .evolve call =>
      match s.point with
      | .outside => some { s with point := .firstStatus call }
      | _ => none
  | .next =>
      match s.point with
      | .firstStatus call =>
          if s.status = .busy then some { s with point := .outside }
          else some { s with point := .secondStatus call }
      | .secondStatus call =>
          if s.status = .busyError then some { s with point := .outside }
          else some { s with point := .build call }
      | _ => none
  | .build planning =>
      match s.point with
      | .build call => some (s.build settings call planning)
      | _ => none
  | .island k e =>
      match s.archipelago[k]? with
      | none => none
      | some isl =>
          if isl.task = .running then
            (isl.step e).map fun isl => { s with archipelago := s.archipelago.set k isl }
          else none

end Solver

/-! ## The islands of a new archipelago -/

section Made

variable {problem : SolverProblem D} {initialHints : List (VectorDouble D)}
  {call : EvolveCall D Algo} {pop pop' : Population D}

/-- The individuals from `i` on are replaced by the next hints. -/
theorem setHints_x {left i : Nat} (inside : i + left ≤ pop.size)
    (made : setHints problem initialHints left i pop = some pop')
    (evaluated : Evaluated problem.functions pop) :
    pop'.x = overwrite pop.x i ((initialHints.drop i).take left) ∧
      Evaluated problem.functions pop' := by
  induction left generalizing i pop with
  | zero =>
      obtain rfl := Option.some.inj made
      simp [evaluated]
  | succ left ih =>
      rw [setHints, Option.bind_eq_bind, Option.bind_eq_some_iff] at made
      obtain ⟨hint, next, made⟩ := made
      rw [Option.bind_eq_bind, Option.bind_eq_some_iff] at made
      obtain ⟨between, set_, rest⟩ := made
      rw [SolverProblem.setX] at set_
      split_ifs at set_
      obtain rfl := Option.some.inj set_
      obtain ⟨some_, rfl⟩ := List.getElem?_eq_some_iff.mp next
      have resized : (pop.setX problem.functions i initialHints[i]).size = pop.size :=
        List.length_set
      obtain ⟨filled, evaluated⟩ := ih (by omega) rest (evaluated.setX i _)
      have here : i < pop.x.length := by
        unfold Population.size at inside
        omega
      refine ⟨?_, evaluated⟩
      rw [List.drop_eq_getElem_cons some_, List.take_succ_cons, ← overwrite_set here]
      exact filled

/-- The first individuals are the hints, as many as there are or as find a place. -/
theorem setIslandHints_spec (made : setIslandHints problem initialHints pop = some pop')
    (evaluated : Evaluated problem.functions pop) :
    pop'.size = pop.size ∧ Evaluated problem.functions pop' ∧
      initialHints.take pop.size <+: pop'.x := by
  rw [setIslandHints] at made
  split_ifs at made with none_
  · obtain rfl := Option.some.inj made
    rw [List.isEmpty_iff.mp none_]
    exact ⟨rfl, evaluated, by simp⟩
  · obtain ⟨filled, evaluated⟩ := setHints_x (by omega) made evaluated
    have cut : (initialHints.drop 0).take (min initialHints.length pop.size) =
        initialHints.take pop.size := by
      rw [List.drop_zero, Nat.min_comm]
      exact List.take_eq_take_min.symm
    rw [cut] at filled
    refine ⟨?_, evaluated, ?_⟩
    · rw [Population.size, filled]
      exact length_overwrite_zero (List.length_take_le _ _)
    · rw [filled, overwrite_zero]
      exact List.prefix_append _ _

/-- An island as the solver makes it. -/
structure SolverIsland.Made (call : EvolveCall D Algo) (initialHints : List (VectorDouble D))
    (isl : SolverIsland D Algo) : Prop where
  problem : isl.problem = call.problem
  evaluated : Evaluated isl.problem.functions isl.isl.pop
  quarters : 4 ∣ isl.isl.pop.size
  bounded : isl.isl.pop.size < 2 ^ 64
  hinted : initialHints.take isl.isl.pop.size <+: isl.isl.pop.x

theorem SolverIsland.Made.started {isl : SolverIsland D Algo} (made : isl.Made call initialHints)
    (cycleCount : Nat) : (isl.started cycleCount).Made call initialHints :=
  ⟨made.problem, made.evaluated, made.quarters, made.bounded, made.hinted⟩

theorem makeSolverIslands_made {seeds : Nat → UInt32} {workPlan : List (PlanEntry Algo)}
    (quarters : ∀ entry ∈ workPlan, 4 ∣ entry.populationSize.toNat) (left i : Nat) :
    ∀ isl ∈ (makeSolverIslands call initialHints seeds workPlan left i).1,
      isl.Made call initialHints ∧ isl.task = .finished := by
  induction left generalizing i with
  | zero => exact fun isl member => nomatch member
  | succ left ih =>
      intro isl member
      rw [makeSolverIslands] at member
      split at member
      case h_1 => cases member
      case h_2 entry found =>
        split at member
        case h_1 => cases member
        case h_2 pop hinted =>
          rcases List.mem_cons.mp member with rfl | later
          · have size : (Population.random call.problem.functions entry.populationSize
                (seeds i)).size = entry.populationSize.toNat :=
              call.problem.functions.length_random _ _
            obtain ⟨same, evaluated, first⟩ := setIslandHints_spec hinted rfl
            rw [size] at same
            refine ⟨⟨rfl, evaluated, ?_, ?_, ?_⟩, rfl⟩
            · change 4 ∣ pop.size
              rw [same]
              exact quarters entry (List.mem_of_getElem? found)
            · change pop.size < _
              rw [same]
              exact entry.populationSize.toNat_lt
            · change initialHints.take pop.size <+: pop.x
              rw [same, ← size]
              exact first
          · exact ih (i + 1) isl later

end Made

namespace Solver

variable {settings : SolverSettings M Algo} {s t : Solver D Algo} {e : SolverEvent D Algo}
  {es : List (SolverEvent D Algo)} {call : EvolveCall D Algo} {planning : Planning}

/-- How the rest of `evolve` ends: the plan is undefined, something throws, or the tasks are
    started. -/
inductive Built (s : Solver D Algo) (call : EvolveCall D Algo) : Solver D Algo → Prop
  | undefined : Built s call { s with archipelago := [], point := .undefined }
  | threw (made : List (SolverIsland D Algo))
      (each : ∀ isl ∈ made, isl.Made call s.initialHints ∧ isl.task = .finished) :
      Built s call { s with archipelago := made, point := .outside }
  | started (made : List (SolverIsland D Algo))
      (each : ∀ isl ∈ made, isl.Made call s.initialHints ∧ isl.task = .finished) :
      Built s call { initialHints := [], archipelago := made.map (.started call.cycleCount),
                     point := .outside }

theorem build_cases (settings : SolverSettings M Algo) (s : Solver D Algo)
    (call : EvolveCall D Algo) (planning : Planning) :
    Built s call (s.build settings call planning) := by
  unfold Solver.build
  dsimp only
  split
  case h_1 => exact .undefined
  case h_2 => exact .threw [] fun isl member => nomatch member
  case h_3 workPlan planned =>
    have each := @makeSolverIslands_made D Algo s.initialHints call planning.seeds workPlan
      (generateWorkPlan_multiple planned)
      (optimalIslandCount planning.readings settings.expectedWorkerCount).toNat 0
    split
    case h_1 made islands =>
      rw [islands] at each
      exact .threw made each
    case h_2 made islands =>
      rw [islands] at each
      exact .started made each

theorem Built.made (built : Built s call t) :
    ∀ isl ∈ t.archipelago, isl.Made call s.initialHints := by
  intro isl member
  cases built with
  | undefined => cases member
  | threw made each => exact (each isl member).1
  | started made each =>
      obtain ⟨isl, inside, rfl⟩ := List.mem_map.mp member
      exact (each isl inside).1.started call.cycleCount

/-! ## The status -/

def anyRunning (s : Solver D Algo) : Bool :=
  Metasolver.anyRunning (s.archipelago.map SolverIsland.evolving)

def anyFailed (s : Solver D Algo) : Bool :=
  Metasolver.anyFailed (s.archipelago.map SolverIsland.evolving)

theorem status_busy_iff : s.status = .busy ↔ s.anyRunning = true ∧ s.anyFailed = false := by
  unfold Solver.status Metasolver.status Solver.anyRunning Solver.anyFailed
  cases Metasolver.anyRunning _ <;> cases Metasolver.anyFailed _ <;> simp

theorem status_busyError_iff :
    s.status = .busyError ↔ s.anyRunning = true ∧ s.anyFailed = true := by
  unfold Solver.status Metasolver.status Solver.anyRunning Solver.anyFailed
  cases Metasolver.anyRunning _ <;> cases Metasolver.anyFailed _ <;> simp

theorem anyRunning_of_running {k : Nat} {isl : SolverIsland D Algo}
    (found : s.archipelago[k]? = some isl) (running : isl.task = .running) :
    s.anyRunning = true := by
  apply List.any_eq_true.mpr
  refine ⟨isl.evolving, List.mem_map_of_mem (List.mem_of_getElem? found), ?_⟩
  simp [isRunning, SolverIsland.evolving, running]

/-- A task that has failed stays failed, since only running ones change. -/
theorem anyFailed_set {k : Nat} {isl isl' : SolverIsland D Algo}
    (found : s.archipelago[k]? = some isl) (running : isl.task = .running)
    (failed : s.anyFailed = true) :
    ({ s with archipelago := s.archipelago.set k isl' } : Solver D Algo).anyFailed = true := by
  obtain ⟨_, member, is⟩ := List.any_eq_true.mp failed
  obtain ⟨other, inside, rfl⟩ := List.mem_map.mp member
  obtain ⟨j, bound, rfl⟩ := List.getElem_of_mem inside
  have apart : k ≠ j := by
    rintro rfl
    rw [List.getElem?_eq_getElem bound] at found
    obtain rfl := Option.some.inj found
    simp [error?, SolverIsland.evolving, running] at is
  refine List.any_eq_true.mpr ⟨s.archipelago[j].evolving, List.mem_map_of_mem ?_, is⟩
  apply List.mem_of_getElem?
  rw [List.getElem?_set_ne apart, List.getElem?_eq_getElem bound]

/-! ## What a step does -/

variable [LT D] [DecidableLT D]

/-- A step of the calling thread or of an island. -/
inductive Stepped (settings : SolverSettings M Algo) (s : Solver D Algo) :
    SolverEvent D Algo → Solver D Algo → Prop
  | setInitialHints (hints : List (VectorDouble D)) (point : s.point = .outside) :
      Stepped settings s (.setInitialHints hints) { s with initialHints := hints }
  | evolve (call : EvolveCall D Algo) (point : s.point = .outside) :
      Stepped settings s (.evolve call) { s with point := .firstStatus call }
  | busy (call : EvolveCall D Algo) (point : s.point = .firstStatus call)
      (is : s.status = .busy) : Stepped settings s .next { s with point := .outside }
  | notBusy (call : EvolveCall D Algo) (point : s.point = .firstStatus call)
      (isnt : s.status ≠ .busy) : Stepped settings s .next { s with point := .secondStatus call }
  | busyError (call : EvolveCall D Algo) (point : s.point = .secondStatus call)
      (is : s.status = .busyError) : Stepped settings s .next { s with point := .outside }
  | notBusyError (call : EvolveCall D Algo) (point : s.point = .secondStatus call)
      (isnt : s.status ≠ .busyError) : Stepped settings s .next { s with point := .build call }
  | build (planning : Planning) (call : EvolveCall D Algo) (point : s.point = .build call)
      (t : Solver D Algo) (built : Built s call t) : Stepped settings s (.build planning) t
  | island (k : Nat) (e : TaskEvent D Algo) (isl isl' : SolverIsland D Algo)
      (found : s.archipelago[k]? = some isl) (running : isl.task = .running)
      (moved : isl.step e = some isl') :
      Stepped settings s (.island k e) { s with archipelago := s.archipelago.set k isl' }

theorem step_cases (h : s.step settings e = some t) : Stepped settings s e t := by
  cases e with
  | setInitialHints hints =>
      simp only [step] at h
      split at h
      case h_1 point => exact Option.some.inj h ▸ .setInitialHints hints point
      case h_2 => cases h
  | evolve call =>
      simp only [step] at h
      split at h
      case h_1 point => exact Option.some.inj h ▸ .evolve call point
      case h_2 => cases h
  | next =>
      simp only [step] at h
      split at h
      case h_1 call point =>
        split_ifs at h with is
        · exact Option.some.inj h ▸ .busy call point is
        · exact Option.some.inj h ▸ .notBusy call point is
      case h_2 call point =>
        split_ifs at h with is
        · exact Option.some.inj h ▸ .busyError call point is
        · exact Option.some.inj h ▸ .notBusyError call point is
      case h_3 => cases h
  | build planning =>
      simp only [step] at h
      split at h
      case h_1 call point =>
        obtain rfl := Option.some.inj h
        exact .build planning call point _ (build_cases settings s call planning)
      case h_2 => cases h
  | island k e =>
      simp only [step] at h
      split at h
      case h_1 => cases h
      case h_2 isl found =>
        split_ifs at h with running
        obtain ⟨isl', moved, rfl⟩ := Option.map_eq_some_iff.mp h
        exact .island k e isl isl' found running moved

/-! ## The guard -/

/-- What the status reads have found out. -/
def Guarded (s : Solver D Algo) : Prop :=
  match s.point with
  | .secondStatus _ => s.anyRunning = true → s.anyFailed = true
  | .build _ => s.anyRunning = false
  | _ => True

theorem Guarded.step (guarded : Guarded s) (h : s.step settings e = some t) : Guarded t := by
  cases step_cases h with
  | setInitialHints hints point => simp [Guarded, point]
  | evolve call point => simp [Guarded]
  | busy call point is => simp [Guarded]
  | notBusy call point isnt =>
      intro running
      by_contra failed
      exact isnt (status_busy_iff.mpr ⟨running, Bool.eq_false_iff.mpr failed⟩)
  | busyError call point is => simp [Guarded]
  | notBusyError call point isnt =>
      simp only [Guarded, point] at guarded
      apply Bool.eq_false_iff.mpr
      intro running
      exact isnt (status_busyError_iff.mpr ⟨running, guarded running⟩)
  | build planning call point _ built => cases built <;> simp [Guarded]
  | island k e isl isl' found running moved =>
      have ran := anyRunning_of_running found running
      cases point : s.point with
      | secondStatus call =>
          simp only [Guarded, point] at guarded ⊢
          exact fun _ => anyFailed_set found running (guarded ran)
      | build call =>
          simp only [Guarded, point] at guarded
          rw [ran] at guarded
          cases guarded
      | outside => simp [Guarded]
      | firstStatus call => simp [Guarded]
      | undefined => simp [Guarded]

/-- No archipelago is given up while a task of it is running. -/
theorem idle_of_build (run : exec (Solver.step settings) {} es = some s)
    (h : s.step settings (.build planning) = some t) : s.anyRunning = false := by
  have start : Guarded ({} : Solver D Algo) := by simp [Guarded]
  have guarded : Guarded s :=
    exec_invariant_of_step (fun _ _ _ guarded h => guarded.step h) start run
  cases step_cases h with
  | build planning call point => simpa only [Guarded, point] using guarded

end Solver

variable [LT D] [DecidableLT D]

/-! ## An island while its task runs -/

section Island

variable {isl made isl' : SolverIsland D Algo} {e : TaskEvent D Algo}

/-- What is assumed of pagmo, and that no worker runs into an overflow. -/
def TaskEvent.Trusted (isl : SolverIsland D Algo) : TaskEvent D Algo → Prop
  | .immigrate pop => pop.size = isl.isl.pop.size ∧ Evaluated isl.problem.functions pop
  | .cycle worker => worker.pagmo.Keeps isl.problem.functions ∧ worker.Fits isl.isl.pop.size
  | .fails _ => True
  | .ends => True

/-- No algorithm and no migration loses the best individuals. -/
def TaskEvent.Elitist (isl : SolverIsland D Algo) : TaskEvent D Algo → Prop
  | .immigrate pop => Matched isl.isl.pop.f pop.f
  | .cycle worker => worker.pagmo.Elitist
  | .fails _ => True
  | .ends => True

/-- The same island later. -/
structure SolverIsland.Follows (made isl : SolverIsland D Algo) : Prop where
  problem : isl.problem = made.problem
  size : isl.isl.pop.size = made.isl.pop.size
  evaluated : Evaluated made.problem.functions isl.isl.pop

namespace SolverIsland

theorem Follows.step (follows : made.Follows isl) (quarters : 4 ∣ made.isl.pop.size)
    (bounded : made.isl.pop.size < 2 ^ 64) (trusted : e.Trusted isl)
    (h : isl.step e = some isl') :
    made.Follows isl' ∧ (made.problem.Ranked → e.Elitist isl →
      Matched isl.isl.pop.f isl'.isl.pop.f) := by
  obtain ⟨problem, size, evaluated⟩ := follows
  have still : made.problem.Ranked → Matched isl.isl.pop.f isl.isl.pop.f := by
    intro ranked
    rw [evaluated]
    exact Matched.of_subset ranked.comparable fun _ member => member
  cases e with
  | immigrate pop =>
      obtain rfl := Option.some.inj h
      obtain ⟨same, evaluated'⟩ := trusted
      rw [problem] at evaluated'
      exact ⟨⟨problem, same.trans size, evaluated'⟩, fun _ elitist => elitist⟩
  | cycle worker =>
      simp only [SolverIsland.step] at h
      split at h
      case h_1 left results more served =>
        obtain rfl := Option.some.inj h
        obtain ⟨keeps, fits⟩ := trusted
        rw [problem] at keeps served
        rcases @workerThread_spec D Algo _ _ made.problem.toJobProblem worker isl.isl isl.cycleCount
          keeps fits (by rwa [size]) (by rwa [size]) evaluated with
          ⟨_, throws⟩ | ⟨results', returned, kept, matched⟩
        · rw [served] at throws
          cases throws
        · rw [served] at returned
          obtain rfl := Except.ok.inj returned
          exact ⟨⟨problem, kept.size.trans size, kept.evaluated⟩, fun ranked elitist =>
            matched ranked elitist⟩
      case h_2 => cases h
  | fails what =>
      obtain rfl := Option.some.inj h
      exact ⟨⟨problem, size, evaluated⟩, fun ranked _ => still ranked⟩
  | ends =>
      simp only [SolverIsland.step] at h
      split_ifs at h
      obtain rfl := Option.some.inj h
      exact ⟨⟨problem, size, evaluated⟩, fun ranked _ => still ranked⟩

end SolverIsland

end Island

/-! ## The archipelago -/

namespace Solver

variable {settings : SolverSettings M Algo} {s t : Solver D Algo} {e : SolverEvent D Algo}
  {es : List (SolverEvent D Algo)} {call : EvolveCall D Algo}

/-- A condition on what happens on the islands. -/
def EachIsland (P : SolverIsland D Algo → TaskEvent D Algo → Prop) (s : Solver D Algo) :
    SolverEvent D Algo → Prop
  | .island k e => ∀ isl, s.archipelago[k]? = some isl → P isl e
  | _ => True

/-- The step makes an archipelago. -/
def IsBuild : SolverEvent D Algo → Prop
  | .build _ => True
  | _ => False

/-- Between two archipelagos only the running tasks change the islands. -/
theorem archipelago_step {R : SolverIsland D Algo → SolverIsland D Algo → Prop}
    {P : SolverIsland D Algo → TaskEvent D Algo → Prop} {made : List (SolverIsland D Algo)}
    (preserved : ∀ first ∈ made, ∀ isl isl' e, R first isl → P isl e → isl.step e = some isl' →
      R first isl')
    (related : List.Forall₂ R made s.archipelago) (guarded : EachIsland P s e ∧ ¬IsBuild e)
    (h : s.step settings e = some t) : List.Forall₂ R made t.archipelago := by
  cases step_cases h with
  | build planning call point t built => exact absurd trivial guarded.2
  | island k e isl isl' found running moved =>
      apply forall₂_set related found
      intro first member is
      exact preserved first member isl isl' e is (guarded.1 isl found) moved
  | setInitialHints hints point => exact related
  | evolve call point => exact related
  | busy call point is => exact related
  | notBusy call point isnt => exact related
  | busyError call point is => exact related
  | notBusyError call point isnt => exact related

section

variable {initialHints : List (VectorDouble D)}
  (made : ∀ isl ∈ s.archipelago, isl.Made call initialHints)
  (trusted : Along (Solver.step settings) (EachIsland fun isl e => e.Trusted isl) s es)
  (same : Along (Solver.step settings) (fun _ e => ¬IsBuild e) s es)
  (run : exec (Solver.step settings) s es = some t)
include made trusted same run

/-- The islands since their archipelago was made. -/
theorem archipelago_follows : List.Forall₂ SolverIsland.Follows s.archipelago t.archipelago := by
  refine exec_invariant (I := fun t => List.Forall₂ SolverIsland.Follows s.archipelago
    t.archipelago) (fun r e t related guarded h => ?_) ?_ (along_and trusted same) run
  · refine archipelago_step ?_ related guarded h
    intro first member isl isl' e follows trusted moved
    exact (follows.step (made first member).quarters (made first member).bounded trusted
      moved).1
  · exact List.forall₂_same.mpr fun isl member => ⟨rfl, rfl, (made isl member).evaluated⟩

/-- No individual an island was made with is better than all it has later. -/
theorem archipelago_matched (ranked : call.problem.Ranked)
    (elitist : Along (Solver.step settings) (EachIsland fun isl e => e.Elitist isl) s es) :
    List.Forall₂ (fun first isl => SolverIsland.Follows first isl ∧
      Matched first.isl.pop.f isl.isl.pop.f) s.archipelago t.archipelago := by
  have each : Along (Solver.step settings) (fun s e =>
      EachIsland (fun isl e => e.Trusted isl ∧ e.Elitist isl) s e ∧ ¬IsBuild e) s es := by
    refine along_mono ?_ (along_and (along_and trusted elitist) same)
    rintro r e ⟨⟨trusted, elitist⟩, same⟩
    refine ⟨?_, same⟩
    cases e with
    | island k e => exact fun isl found => ⟨trusted isl found, elitist isl found⟩
    | setInitialHints hints => trivial
    | evolve call => trivial
    | next => trivial
    | build planning => trivial
  refine exec_invariant (I := fun t => List.Forall₂ (fun first isl =>
    SolverIsland.Follows first isl ∧ Matched first.isl.pop.f isl.isl.pop.f) s.archipelago
    t.archipelago) (fun r e t related guarded h => ?_) ?_ each run
  · refine archipelago_step ?_ related guarded h
    intro first member isl isl' e ⟨follows, matched⟩ ⟨trusted, elitist⟩ moved
    have here := made first member
    rw [← here.problem] at ranked
    obtain ⟨follows', next⟩ := follows.step here.quarters here.bounded trusted moved
    refine ⟨follows', ?_⟩
    have later := next ranked elitist
    rw [follows.evaluated] at later matched
    rw [follows'.evaluated] at later ⊢
    rw [here.evaluated] at matched ⊢
    exact matched.trans ranked.comparable later
  · refine List.forall₂_same.mpr fun isl member => ?_
    have here := made isl member
    refine ⟨⟨rfl, rfl, here.evaluated⟩, ?_⟩
    rw [← here.problem] at ranked
    rw [here.evaluated]
    exact Matched.of_subset ranked.comparable fun _ member => member

end

end Solver

/-! ## The best individual -/

/-- No individual of the islands is better than the one that is returned. -/
theorem getBestIndividual_best {problem : JobProblem D} {archi : List (Population D)}
    (ranked : problem.Ranked) (evaluated : ∀ pop ∈ archi, Evaluated problem.functions pop)
    {y : VectorDouble D} (member : y ∈ (mergePopulations archi).1) :
    ∃ x, getBestIndividual problem.ranking problem.prob archi = some x ∧
      ¬FirstLess (problem.functions.fitness y) (problem.functions.fitness x) := by
  have own := mergePopulations_evaluated evaluated
  have inside : problem.functions.fitness y ∈ (mergePopulations archi).2 := by
    rw [own]
    exact List.mem_map_of_mem member
  have some_ : (mergePopulations archi).2 ≠ [] := List.ne_nil_of_mem inside
  have islands : archi.length ≠ 0 := by
    intro none_
    rw [List.length_eq_zero_iff.mp none_] at member
    cases member
  have ordered := ranked.comparable (mergePopulations archi).1
  rw [← own] at ordered
  have perm := @sortedIndexes_perm D _ _ problem.ranking problem.prob (mergePopulations archi).2
  obtain ⟨k, bound, first, -⟩ := take_one_of_perm perm (mt List.length_eq_zero_iff.mp some_)
  obtain ⟨g, picked, notWorse⟩ := matched_take ordered perm Nat.one_pos
    (pairwise_sortedIndexes ordered ranked.single ranked.unconstrained) _ inside
  have cut := @getBestNIndividualsIndexes_eq D _ _ problem.ranking problem.prob
    (mergePopulations archi).2 1 (Or.inr (List.length_pos_iff.mpr some_))
  rw [first] at cut picked
  have same : (mergePopulations archi).2.length = (mergePopulations archi).1.length := by
    rw [own, List.length_map]
  have bound' : k < (mergePopulations archi).1.length := same ▸ bound
  refine ⟨(mergePopulations archi).1[k], ?_, ?_⟩
  · rw [getBestIndividual, getBestNIndividuals, if_neg islands]
    simp only [selectBestNIndividuals, cut]
    simp [bound']
  · obtain ⟨j, listed, found⟩ := mem_pick.mp picked
    obtain rfl := List.mem_singleton.mp listed
    rw [own, List.getElem?_map, List.getElem?_eq_getElem bound'] at found
    rw [Option.some.inj found]
    exact notWorse

namespace Solver

variable {settings : SolverSettings M Algo} {s t u : Solver D Algo} {e : SolverEvent D Algo}
  {es : List (SolverEvent D Algo)} {call : EvolveCall D Algo}

theorem getBestIndividual_of_follows (ranked : call.problem.Ranked)
    (made : ∀ isl ∈ u.archipelago, isl.Made call s.initialHints)
    (related : List.Forall₂ (fun first isl => SolverIsland.Follows first isl ∧
      Matched first.isl.pop.f isl.isl.pop.f) u.archipelago t.archipelago)
    {first : SolverIsland D Algo} (member : first ∈ u.archipelago) {hint : VectorDouble D}
    (given : hint ∈ s.initialHints.take first.isl.pop.size) :
    ∃ x, t.getBestIndividual = some x ∧
      ¬FirstLess (call.problem.functions.fitness hint) (call.problem.functions.fitness x) := by
  have later : ∀ isl ∈ t.archipelago, isl.problem = call.problem ∧
      Evaluated call.problem.functions isl.isl.pop := by
    intro isl inside
    obtain ⟨j, bound, rfl⟩ := List.getElem_of_mem inside
    have bound' := related.length_eq ▸ bound
    have follows := (related.get bound' bound).1
    have here := made _ (List.get_mem u.archipelago ⟨j, bound'⟩)
    have same := here.problem
    have evaluated := follows.evaluated
    rw [same] at evaluated
    exact ⟨follows.problem.trans same, evaluated⟩
  have evaluated : ∀ pop ∈ t.archipelago.map (·.isl.pop),
      Evaluated call.problem.functions pop := by
    intro pop inside
    obtain ⟨isl, listed, rfl⟩ := List.mem_map.mp inside
    exact (later isl listed).2
  obtain ⟨k, bound, rfl⟩ := List.getElem_of_mem member
  have here := made _ member
  have bound' := related.length_eq ▸ bound
  obtain ⟨follows, matched⟩ := related.get bound bound'
  have inside : call.problem.functions.fitness hint ∈ u.archipelago[k].isl.pop.f := by
    rw [here.evaluated, here.problem]
    exact List.mem_map_of_mem (here.hinted.subset given)
  obtain ⟨g, held, notWorse⟩ := matched _ inside
  have listed := List.get_mem t.archipelago ⟨k, bound'⟩
  have own := (later _ listed).2
  change g ∈ (t.archipelago.get ⟨k, bound'⟩).isl.pop.f at held
  rw [own] at held
  obtain ⟨y, individual, rfl⟩ := List.mem_map.mp held
  obtain ⟨x, best, notBeaten⟩ := getBestIndividual_best ranked evaluated
    (mem_mergePopulations (List.mem_map_of_mem listed) individual)
  refine ⟨x, ?_, ?_⟩
  · rw [getBestIndividual]
    cases archipelago : t.archipelago with
    | nil =>
        rw [archipelago] at bound'
        exact absurd bound' (Nat.not_lt_zero k)
    | cons island rest =>
        rw [archipelago] at best later
        simp only [(later island List.mem_cons_self).1]
        exact best
  · have ordered := ranked.comparable [hint, y, x]
    intro less
    have parts := ordered.cotrans _ (by simp) (call.problem.functions.fitness y) (by simp) _
      (by simp) less
    exact parts.elim notWorse notBeaten

/-! ## The hints -/

/-- The step sets hints. -/
def IsSet : SolverEvent D Algo → Prop
  | .setInitialHints _ => True
  | _ => False

/-- The step makes an archipelago, and then a task is running. -/
def Starts (settings : SolverSettings M Algo) (s : Solver D Algo) (e : SolverEvent D Algo) : Prop :=
  IsBuild e ∧ ∃ t, s.step settings e = some t ∧ t.anyRunning = true

omit [LT D] [DecidableLT D] in
theorem Built.hints (built : Built s call t) : t.initialHints = [] ∨
    t.initialHints = s.initialHints ∧ t.anyRunning = false := by
  cases built with
  | undefined => exact Or.inr ⟨rfl, rfl⟩
  | threw made each =>
      refine Or.inr ⟨rfl, ?_⟩
      apply List.any_eq_false.mpr
      intro _ member
      obtain ⟨isl, inside, rfl⟩ := List.mem_map.mp member
      simp [isRunning, SolverIsland.evolving, (each isl inside).2]
  | started made each => exact Or.inl rfl

/-- Only `set_initial_hints` brings new hints, and an evolution that starts clears them. -/
theorem hints_step (h : s.step settings e = some t) (notSet : ¬IsSet e) :
    t.initialHints = [] ∨ t.initialHints = s.initialHints ∧ ¬Starts settings s e := by
  cases step_cases h with
  | setInitialHints hints point => exact absurd trivial notSet
  | build planning call point t built =>
      refine built.hints.imp id fun kept => ⟨kept.1, fun starts => ?_⟩
      obtain ⟨-, t', h', runs⟩ := starts
      rw [h] at h'
      obtain rfl := Option.some.inj h'
      rw [kept.2] at runs
      cases runs
  | evolve call point => exact Or.inr ⟨rfl, fun starts => starts.1⟩
  | busy call point is => exact Or.inr ⟨rfl, fun starts => starts.1⟩
  | notBusy call point isnt => exact Or.inr ⟨rfl, fun starts => starts.1⟩
  | busyError call point is => exact Or.inr ⟨rfl, fun starts => starts.1⟩
  | notBusyError call point isnt => exact Or.inr ⟨rfl, fun starts => starts.1⟩
  | island k e isl isl' found running moved => exact Or.inr ⟨rfl, fun starts => starts.1⟩

/-- The hints of a state have been set in this run, and since then neither have other hints
    been set nor has an evolution started. -/
def HintsFrom (settings : SolverSettings M Algo) (es : List (SolverEvent D Algo))
    (s : Solver D Algo) : Prop :=
  ∃ before after t, es = before ++ .setInitialHints s.initialHints :: after ∧
    exec (Solver.step settings) {} (before ++ [.setInitialHints s.initialHints]) = some t ∧
    exec (Solver.step settings) t after = some s ∧
    Along (Solver.step settings) (fun s e => ¬IsSet e ∧ ¬Starts settings s e) t after

theorem hintsFrom_run (run : exec (Solver.step settings) {} es = some s) :
    s.initialHints = [] ∨ HintsFrom settings es s := by
  have kept : ∀ {t u : Solver D Algo} {fs : List (SolverEvent D Algo)},
      exec (Solver.step settings) t fs = some u →
      Along (Solver.step settings) (fun s e => ¬(IsSet e ∨ Starts settings s e)) t fs →
      u.initialHints = [] ∨ u.initialHints = t.initialHints := by
    intro t u fs run along
    refine exec_invariant (I := fun u => u.initialHints = [] ∨
      u.initialHints = t.initialHints) (fun r e v hints guarded h => ?_) (Or.inr rfl) along run
    rcases hints_step h fun is => guarded (Or.inl is) with cleared | ⟨same, -⟩
    · exact Or.inl cleared
    · rwa [same]
  rcases exec_last (fun s e => IsSet e ∨ Starts settings s e) run with
    never | ⟨before, e, after, r, t, rfl, leads, kind, now, rest, last⟩
  · rcases kept run never with none_ | none_ <;> exact Or.inl none_
  · cases e with
    | setInitialHints hints =>
        rcases kept rest last with cleared | same
        · exact Or.inl cleared
        · refine Or.inr ⟨before, after, t, ?_, ?_, rest, along_mono ?_ last⟩
          · rw [same]
            cases step_cases now with
            | setInitialHints hints point => rfl
          · rw [same]
            cases step_cases now with
            | setInitialHints hints point => exact exec_snoc.mpr ⟨r, leads, now⟩
          · exact fun _ _ neither => not_or.mp neither
    | build planning =>
        have starts : Starts settings r (.build planning) := kind.resolve_left id
        rcases hints_step now id with cleared | ⟨-, not⟩
        · rcases kept rest last with none_ | same
          · exact Or.inl none_
          · exact Or.inl (same.trans cleared)
        · exact absurd starts not
    | evolve call => exact absurd kind (by rintro (is | starts); exacts [is, starts.1])
    | next => exact absurd kind (by rintro (is | starts); exacts [is, starts.1])
    | island k e => exact absurd kind (by rintro (is | starts); exacts [is, starts.1])

end Solver

open Solver

/-- One algorithm for one expected worker. -/
def oneExpected : SolverSettings ℚ Unit where
  arith := .rational
  getName _ := "de"

def fourOfOne : EvolveCall Nat Unit where
  problem := { smallestFirst with nx := 1 }
  algorithms := [()]
  populationSize := 4
  minIslandPopSize := 4

/-- Hints are set, and an evolution starts on one island. -/
def hintedStart : List (SolverEvent Nat Unit) :=
  [.setInitialHints [[2]], .evolve fourOfOne, .next, .next]

def onTheirOwn : Planning := ⟨noWorkers, .ascending, fun _ => 7⟩

/-- A worker serves the island. -/
def servedOnce : List (SolverEvent Nat Unit) :=
  [.island 0 (.cycle ⟨.singleThreaded, 80, 8, .descending, 0⟩), .island 0 .ends]

/-- What `hintedStart` leads to. -/
def hintedSolver : Solver Nat Unit where
  initialHints := [[2]]
  point := .build fourOfOne

end Metasolver
