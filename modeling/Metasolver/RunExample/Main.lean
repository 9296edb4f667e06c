import Metasolver.Lib.PosixPath
import Metasolver.Logging.LoggerControl
import Metasolver.RunExample.MainArgs
import Metasolver.Solver.WorkPlan
import Metasolver.Worker.WorkerThread

/-!
# The example program

`main` parses its arguments and runs a controller task or a worker.  What the parts of the
program do is given by a `MainWorld`: whether they return, what they throw, whether they are
undefined, end the process or never end; the default task waits until workers connect.  What
is left is the life of the objects in between, and with it that of the loggers: an object that
goes out of scope, or is unwound, is destroyed before the handler runs, and the handler logs.
The destructor saves the settings, and what a destructor throws ends the process.
The static objects, which are destroyed after `main` has returned, are left out.

So the exit code is not always that of the tasks (`main_outcome`).  With `--disable-logging`
the null logger is registered before the constructor wants to, and no solver and no worker is
ever made.  Two benchmarks need two solvers, of which the second is never made.  And what is
thrown once a log file is in use is not reported: spdlog is shut down by then, and the
handler dereferences null.
-/

namespace Metasolver

open Effects
open PosixPath (joinPath)

/-- The arguments of `distributed_solver::distributed_solver`. -/
structure SolverConfig where
  controllerAddress : String
  expectedWorkerCount : UInt64
  loadBalancingStrategy : LoadBalancingStrategy
  deriving DecidableEq, Repr

/-- The arguments of `distributed_worker::distributed_worker`. -/
structure WorkerConfig where
  controllerAddress : String
  workerMode : WorkerMode
  minIslandPopSize : UInt64
  heartbeatInterval : Int
  heartbeatTimeout : Int
  reconnectIvlMax : Int
  settingsFilePath : String
  deriving DecidableEq, Repr

/-- How the parts of the program end that `main` puts together. -/
structure MainWorld where
  /-- The constructor of a solver, without that of its base. -/
  makeSolver : SolverConfig → Except Stop Unit
  /-- Its destructor, without that of its base. -/
  destroySolver : Except Stop Unit
  /-- `run_so_benchmark`. -/
  runSoBenchmark : Except Stop Unit
  /-- `run_mo_benchmark`. -/
  runMoBenchmark : Except Stop Unit
  /-- The problem and the algorithm of the default task. -/
  makeProblem : Except Stop Unit
  /-- What the default task does with its solver. -/
  runDefault : Except Stop Unit
  /-- The name of a log file (`generate_log_filename`), and what opening it throws. -/
  logFilename : String → String
  logFileError : Option Thrown
  /-- `uuid::v4::UUID::New().String()`. -/
  uuid : String
  /-- What `create_directories` throws: the text of a `filesystem_error`. -/
  createDirectories : String → Option String
  /-- The constructor of a worker, without that of its base. -/
  makeWorker : WorkerConfig → Except Stop Unit
  /-- Its destructor, without that of its base. -/
  destroyWorker : Except Stop Unit
  /-- What becomes of the endless loop of `client_loop` calls. -/
  clientLoop : Stop

def settle : Except Stop Unit → LoggingM Unit
  | .ok () => pure ()
  | .error stop => throw stop

/-- A part of the program that logs. -/
def logging (outcome : Except Stop Unit) : LoggingM Unit := do
  spdlogCall
  settle outcome

/-- A function that is `noexcept`, as destructors are: what it throws ends the process. -/
def noexcept : Except Stop Unit → Except Stop Unit
  | .error (.thrown _) => .error .terminated
  | outcome => outcome

/-- The destructor of an object, and then that of its base. -/
def destroyObject (i : ObjectId) (destructor : Except Stop Unit) : LoggingM Unit := do
  settle (noexcept destructor)
  LoggerControl.destroy i

/-- An object in the scope of a block: whether the block returns or throws, the object is
    destroyed. -/
def withObject (i : ObjectId) (derived destructor : Except Stop Unit) (block : LoggingM Unit) :
    LoggingM Unit := do
  LoggerControl.make i derived
  try block
  catch
    | .thrown t =>
        destroyObject i destructor
        throw (.thrown t)
    | stop => throw stop
  destroyObject i destructor

/-- `enable_logging` without a file name (`logger_control.cpp:22-27`). -/
def enableDefaultLogging (world : MainWorld) (i : ObjectId) (defaultLogName : String) :
    LoggingM Unit :=
  LoggerControl.enableLogging i (world.logFilename defaultLogName ++ ".log") true
    world.logFileError

/-- `udp_registry::set_local_cache_dir` and `register_udp_provider` do nothing here but log. -/
def setLocalCacheDir : LoggingM Unit := spdlogCall

def registerUdpProvider : LoggingM Unit := spdlogCall

/-! ## The tasks of a controller -/

/-- `construct_so_algorithms` (`so_benchmark.cpp:12-25`). -/
def soAlgorithms : List String :=
  ["gaco", "de", "sade", "de1220", "gwo", "pso", "bee_colony", "simulated_annealing"]

/-- `construct_mo_algorithms` (`mo_benchmark.cpp:11-22`). -/
def moAlgorithms : List String := ["nsga2", "moead", "moead_gen", "maco", "nspso", "ihs"]

/-- A benchmark and its solver.  The worker count is not that of the arguments. -/
def soTask (world : MainWorld) (address : String) (strategy : LoadBalancingStrategy) :
    LoggingM Unit :=
  withObject 0 (world.makeSolver ⟨address, .ofNat soAlgorithms.length, strategy⟩)
    world.destroySolver (logging world.runSoBenchmark)

def moTask (world : MainWorld) (address : String) (strategy : LoadBalancingStrategy) :
    LoggingM Unit :=
  withObject 0 (world.makeSolver ⟨address, .ofNat moAlgorithms.length, strategy⟩)
    world.destroySolver (logging world.runMoBenchmark)

/-- `benchmark_controller_task` (`main.cpp:23-44`). -/
def benchmarkControllerTask (world : MainWorld) (address : String)
    (strategy : LoadBalancingStrategy) (runSO runMO : Bool) : LoggingM Unit := do
  setLocalCacheDir
  if runSO then
    soTask world address strategy
  if runMO then
    moTask world address strategy

/-- The default task in the scope of its solver (`main.cpp:58-72`). -/
def useSolver (world : MainWorld) (disableLogging : Bool) : LoggingM Unit := do
  if !disableLogging then
    enableDefaultLogging world 0 "./logs/solver"
  logging world.runDefault

/-- `default_controller_task` (`main.cpp:46-73`). -/
def defaultControllerTask (world : MainWorld) (config : SolverConfig) (disableLogging : Bool) :
    LoggingM Unit := do
  setLocalCacheDir
  logging world.makeProblem
  withObject 0 (world.makeSolver config) world.destroySolver (useSolver world disableLogging)

/-! ## Controller and worker -/

/-- The text of what has been thrown, as the handlers put it into their message. -/
def Thrown.text : Thrown → String
  | .exception what => what
  | .string s => s
  | .charPtr s => s
  | .other => "unknown exception type"

/-- The handlers of `run_controller` and `run_worker`: they log, and throw a
    `runtime_error`. -/
def reporting (message : String) (block : LoggingM Unit) : LoggingM Unit := do
  try block
  catch
    | .thrown t =>
        spdlogCall
        throw (.thrown (.exception (message ++ t.text)))
    | stop => throw stop

/-- `run_controller` (`main.cpp:79-113`). -/
def runController (runFunc : LoggingM Unit) : LoggingM Unit :=
  reporting "Aborting distributed solver, an exception occurred: " runFunc

/-- The `try` block of `run_worker` in the scope of the worker (`main.cpp:135-144`). -/
def useWorker (world : MainWorld) (disableLogging : Bool) : LoggingM Unit := do
  if !disableLogging then
    enableDefaultLogging world 0 "./logs/worker"
  setLocalCacheDir
  registerUdpProvider
  throw world.clientLoop

/-- `run_worker` (`main.cpp:115-170`). -/
def runWorker (world : MainWorld) (address : String) (mode : WorkerMode)
    (minIslandPopSize : UInt64) (settingsFilePath : String) (disableLogging : Bool) :
    LoggingM Unit :=
  reporting "Aborting distributed worker, an exception occurred: "
    (withObject 0
      (world.makeWorker ⟨address, mode, minIslandPopSize, 1000, 3000000, 10000, settingsFilePath⟩)
      world.destroyWorker (useWorker world disableLogging))

/-! ## `main` -/

namespace MainArgs

/-! What `main` makes of its arguments for the controller and the worker. -/

def controllerAddress (ma : MainArgs) : String :=
  if ma.address = "" then ma.defaultAddressController else ma.address

def loadBalancingStrategy (ma : MainArgs) : LoadBalancingStrategy :=
  if ma.strategy = "ALL_ISLANDS_EQUAL" then .allIslandsEqual else .byPerformance

def workerAddress (ma : MainArgs) : String :=
  if ma.address = "" then ma.defaultAddressWorker else ma.address

def mode (ma : MainArgs) : WorkerMode :=
  if ma.workerMode = "ARCHIPELAGO_BASED" then .archipelagoBased else .singleThreaded

def baseCacheDir (ma : MainArgs) : String :=
  if ma.cacheDir = "" then ma.defaultCacheDirWorker else ma.cacheDir

/-- The isolated directory of a worker. -/
def workerRoot (ma : MainArgs) (uuid : String) : String :=
  joinPath ma.baseCacheDir (if ma.workerDir = "" then "worker_" ++ uuid else ma.workerDir)

/-- The directory of the settings file. -/
def settingsDir (ma : MainArgs) (uuid : String) : String :=
  if ma.noWorkerDirectory then ma.baseCacheDir else ma.workerRoot uuid

end MainArgs

/-- The directories are created for an isolated worker only. -/
def createWorkerDirectories (world : MainWorld) (ma : MainArgs) : LoggingM Unit :=
  if ma.noWorkerDirectory then pure ()
  else match world.createDirectories (joinPath (ma.workerRoot world.uuid) "cache") with
    | some what => throw (.thrown (.exception what))
    | none => pure ()

/-- What follows the parsing, in the `try` block (`main.cpp:345-417`). -/
def runTask (world : MainWorld) (ma : MainArgs) : LoggingM Unit := do
  if ma.isController then
    runController
      (if ma.runSOBenchmark || ma.runMOBenchmark then
        benchmarkControllerTask world ma.controllerAddress ma.loadBalancingStrategy
          ma.runSOBenchmark ma.runMOBenchmark
      else
        defaultControllerTask world
          ⟨ma.controllerAddress, ma.workers, ma.loadBalancingStrategy⟩ ma.disableLogging)
  else
    createWorkerDirectories world ma
    runWorker world ma.workerAddress ma.mode ma.minPopSize
      (joinPath (ma.settingsDir world.uuid) "worker_settings.xml") ma.disableLogging

/-- How the program ends, if it does.  `terminates` is `std::terminate`: an exception that
    nobody catches, or one that a destructor throws. -/
inductive MainOutcome where
  | returns (code : Nat)
  | terminates
  | undefinedBehaviour
  | runsForever
  deriving DecidableEq, Repr

/-- The `catch` clause of `main` takes `std::exception` only. -/
def MainOutcome.ofTask : EStateM.Result Stop LoggedProcess Unit → MainOutcome
  | .ok _ _ => .returns 0
  | .error (.thrown (.exception _)) _ => .returns 2
  | .error (.thrown _) _ => .terminates
  | .error .undefinedBehaviour _ => .undefinedBehaviour
  | .error .terminated _ => .terminates
  | .error .runsForever _ => .runsForever

/-- `main` (`main.cpp:328-419`). -/
def main (world : MainWorld) (argv : List String) : MainOutcome :=
  match parseMainArgs argv with
  | .error _ => .terminates
  | .ok none => .returns 2
  | .ok (some ma) =>
      -- outside of the `try` block
      match (if ma.disableLogging then useNullLogger else pure ()).run .start with
      | .ok _ p => .ofTask ((runTask world ma).run p)
      | .error _ _ => .terminates

/-! ## What the parts end with -/

open LoggedProcess in
/-- A constructor with that of its base, which throws if the null logger is registered. -/
def constructed (registered : Bool) (derived : Except Stop Unit) : Except Stop Unit :=
  if registered then .error (.thrown (alreadyExists nullLogger)) else derived

/-- A block with an object in its scope. -/
def inScope (block destructor : Except Stop Unit) : Except Stop Unit :=
  match block with
  | .ok () => noexcept destructor
  | .error (.thrown t) => (noexcept destructor).bind fun _ => .error (.thrown t)
  | .error stop => .error stop

namespace MainWorld

def soEnd (world : MainWorld) (ma : MainArgs) : Except Stop Unit :=
  (constructed ma.disableLogging (world.makeSolver ⟨ma.controllerAddress,
    .ofNat soAlgorithms.length, ma.loadBalancingStrategy⟩)).bind fun _ =>
      inScope world.runSoBenchmark world.destroySolver

def moEnd (world : MainWorld) (ma : MainArgs) : Except Stop Unit :=
  (constructed ma.disableLogging (world.makeSolver ⟨ma.controllerAddress,
    .ofNat moAlgorithms.length, ma.loadBalancingStrategy⟩)).bind fun _ =>
      inScope world.runMoBenchmark world.destroySolver

open LoggedProcess in
/-- The benchmarks.  The solver of the second is made after the first has used the null
    logger. -/
def benchmarkEnd (world : MainWorld) (ma : MainArgs) : Except Stop Unit :=
  if ma.runSOBenchmark then
    (world.soEnd ma).bind fun _ =>
      if ma.runMOBenchmark then .error (.thrown (alreadyExists nullLogger)) else .ok ()
  else world.moEnd ma

def directoriesEnd (world : MainWorld) (ma : MainArgs) : Except Stop Unit :=
  if ma.noWorkerDirectory then .ok ()
  else match world.createDirectories (joinPath (ma.workerRoot world.uuid) "cache") with
    | some what => .error (.thrown (.exception what))
    | none => .ok ()

end MainWorld

namespace MainArgs

def Benchmarks (ma : MainArgs) : Prop :=
  ma.isController = true ∧ (ma.runSOBenchmark || ma.runMOBenchmark) = true

instance (ma : MainArgs) : Decidable ma.Benchmarks := inferInstanceAs (Decidable (_ ∧ _))

end MainArgs

namespace MainWorld

/-- What is run up to the point where a log file is asked for: the benchmarks, which ask for
    none, or all that the object needs that does. -/
def courseEnd (world : MainWorld) (ma : MainArgs) : Except Stop Unit :=
  if ma.Benchmarks then world.benchmarkEnd ma
  else if ma.isController then
    world.makeProblem.bind fun _ => constructed ma.disableLogging
      (world.makeSolver ⟨ma.controllerAddress, ma.workers, ma.loadBalancingStrategy⟩)
  else
    (world.directoriesEnd ma).bind fun _ => constructed ma.disableLogging
      (world.makeWorker ⟨ma.workerAddress, ma.mode, ma.minPopSize, 1000, 3000000, 10000,
        joinPath (ma.settingsDir world.uuid) "worker_settings.xml"⟩)

/-- How the object is used that logs to a file. -/
def useEnd (world : MainWorld) (ma : MainArgs) : Except Stop Unit :=
  if ma.isController then world.runDefault else .error world.clientLoop

def destructorEnd (world : MainWorld) (ma : MainArgs) : Except Stop Unit :=
  if ma.isController then world.destroySolver else world.destroyWorker

/-- A block that opens the log file first. -/
def logged (world : MainWorld) (rest : Except Stop Unit) : Except Stop Unit :=
  match world.logFileError with
  | some t => .error (.thrown t)
  | none => rest

/-- What is then done with the object: if the log file can be opened, it is used, and in any
    case it is destroyed. -/
def objectEnd (world : MainWorld) (ma : MainArgs) : Except Stop Unit :=
  inScope (world.logged (world.useEnd ma)) (world.destructorEnd ma)

/-- An object has been made and logs to a file. -/
structure LogsToFile (world : MainWorld) (ma : MainArgs) : Prop where
  object : ¬ma.Benchmarks
  made : world.courseEnd ma = .ok ()

end MainWorld

/-! ## How the program ends with them -/

/-- How the program ends when what has been thrown is reported. -/
def MainOutcome.ofReported : Except Stop Unit → MainOutcome
  | .ok () => .returns 0
  | .error (.thrown _) => .returns 2
  | .error .undefinedBehaviour => .undefinedBehaviour
  | .error .terminated => .terminates
  | .error .runsForever => .runsForever

/-- How a program ends whose last block has logged to a file: what the block throws is not
    reported. -/
def MainOutcome.ofLogged : Except Stop Unit → MainOutcome
  | .ok () => .returns 0
  | .error .terminated => .terminates
  | .error .runsForever => .runsForever
  | .error _ => .undefinedBehaviour

/-- What cannot be made is reported. -/
def MainOutcome.ofMade (made : Except Stop Unit) (used : MainOutcome) : MainOutcome :=
  match made with
  | .error stop => .ofReported (.error stop)
  | .ok () => used

/-- How the program ends for arguments that are accepted. -/
def MainWorld.outcome (world : MainWorld) (ma : MainArgs) : MainOutcome :=
  .ofMade (world.courseEnd ma)
    (if ma.Benchmarks then .returns 0 else .ofLogged (world.objectEnd ma))

/-! ## Blocks with an object -/

section Blocks

open LoggedProcess LoggerControl

variable {p q : LoggedProcess} {i : ObjectId} {derived destructor outcome : Except Stop Unit}
  {block : LoggingM Unit} {t : Thrown} {stop : Stop} {message : String}

/-- The process after the destructor of an object. -/
def LoggedProcess.destroyed (p : LoggedProcess) (i : ObjectId) : LoggedProcess :=
  (if p.controls i = some ⟨true⟩ then p.shutDown else p).setControl i none

/-- A block that ends in the state in which it began. -/
def ended (p : LoggedProcess) : Except Stop Unit → EStateM.Result Stop LoggedProcess Unit
  | .ok () => .ok () p
  | .error stop => .error stop p

theorem run_logging (active : p.registry.defaultLogger ≠ none) :
    (logging outcome).run p = ended p outcome := by
  rw [logging, EStateM.run_bind, run_spdlogCall, if_neg active]
  cases outcome <;> rfl

/-- A process in which an object can be constructed or not. -/
structure LoggedProcess.Before (p : LoggedProcess) (registered : Bool) : Prop where
  null : nullLogger.name ∈ p.registry.loggers ↔ registered = true
  fresh : p.controls 0 = none
  active : p.registry.defaultLogger ≠ none
  unused : "global_logger" ∉ p.registry.loggers

theorem run_make_before {registered : Bool} (before : p.Before registered) :
    (∃ stop q, constructed registered derived = .error stop ∧
      (make 0 derived).run p = .error stop q ∧ q.registry.defaultLogger ≠ none) ∨
    registered = false ∧ constructed registered derived = .ok () ∧
      (make 0 derived).run p = .ok () ((p.withDefault nullLogger).setControl 0 (some {})) := by
  rw [run_make before.fresh]
  cases registered with
  | true =>
      rw [if_pos (before.null.mpr rfl)]
      exact Or.inl ⟨_, p, rfl, rfl, before.active⟩
  | false =>
      have absent : nullLogger.name ∉ p.registry.loggers := by simp [before.null]
      rw [if_neg absent]
      rcases derived with (t | _ | _ | _) | _
      · exact Or.inl ⟨_, _, rfl, rfl, Option.some_ne_none _⟩
      · exact Or.inl ⟨_, _, rfl, rfl, Option.some_ne_none _⟩
      · exact Or.inl ⟨_, _, rfl, rfl, Option.some_ne_none _⟩
      · exact Or.inl ⟨_, _, rfl, rfl, Option.some_ne_none _⟩
      · exact Or.inr ⟨rfl, rfl, rfl⟩

theorem run_withObject_unmade (failed : (make i derived).run p = .error stop q) :
    (withObject i derived destructor block).run p = .error stop q := by
  rw [withObject, EStateM.run_bind, failed]

theorem run_destroyObject : (destroyObject i destructor).run p = match noexcept destructor with
    | .ok () => .ok () (p.destroyed i)
    | .error stop => .error stop p := by
  rw [destroyObject, EStateM.run_bind]
  cases noexcept destructor with
  | ok u => exact run_destroy
  | error stop => rfl

/-- A block that returns or throws leaves without the object, unless its destructor stops. -/
theorem run_withObject_made (made : (make i derived).run p = .ok () q) :
    (withObject i derived destructor block).run p = match block.run q with
      | .ok () r => (destroyObject i destructor).run r
      | .error (.thrown t) r =>
          (destroyObject i destructor >>= fun _ => throw (.thrown t)).run r
      | .error stop r => .error stop r := by
  rw [withObject, EStateM.run_bind, made]
  simp only
  rw [EStateM.run_bind, run_tryCatch]
  cases block.run q with
  | ok u r => rfl
  | error stop r =>
      cases stop with
      | thrown t =>
          simp only
          rw [EStateM.run_bind]
          cases (destroyObject i destructor).run r <;> rfl
      | undefinedBehaviour | terminated | runsForever => rfl

theorem noexcept_ne_thrown : noexcept destructor ≠ .error (.thrown t) := by
  rcases destructor with (t' | _ | _ | _) | _ <;> simp [noexcept]

/-- If the block ends in `r`, the object is gone in the end, unless the destructor or the block
    has stopped for good. -/
theorem run_withObject_ended {r : LoggedProcess} (made : (make i derived).run p = .ok () q)
    (ends : block.run q = ended r outcome) :
    ∃ s, (withObject i derived destructor block).run p = ended s (inScope outcome destructor) ∧
      (s = r.destroyed i ∨ s = r ∧ inScope outcome destructor ≠ .ok () ∧
        ∀ t, inScope outcome destructor ≠ .error (.thrown t)) := by
  rw [run_withObject_made made, ends]
  cases outcome with
  | ok u =>
      simp only [ended, inScope]
      rw [run_destroyObject]
      cases left : noexcept destructor with
      | ok u => exact ⟨r.destroyed i, rfl, Or.inl rfl⟩
      | error stop =>
          refine ⟨r, rfl, Or.inr ⟨rfl, by simp, ?_⟩⟩
          intro t same
          exact noexcept_ne_thrown (left.trans same)
  | error stop =>
      cases stop with
      | thrown t =>
          simp only [ended, inScope]
          rw [EStateM.run_bind, run_destroyObject]
          cases left : noexcept destructor with
          | ok u => exact ⟨r.destroyed i, rfl, Or.inl rfl⟩
          | error stop =>
              refine ⟨r, rfl, Or.inr ⟨rfl, by simp [Except.bind], ?_⟩⟩
              intro t same
              exact noexcept_ne_thrown (left.trans same)
      | undefinedBehaviour | terminated | runsForever =>
          exact ⟨r, rfl, Or.inr ⟨rfl, by simp [inScope], by simp [inScope]⟩⟩

theorem run_reporting (threw : block.run p = .error (.thrown t) q) :
    (reporting message block).run p = if q.registry.defaultLogger = none
      then .error .undefinedBehaviour q
      else .error (.thrown (.exception (message ++ t.text))) q := by
  rw [reporting, run_tryCatch, threw]
  simp only
  rw [EStateM.run_bind, run_spdlogCall]
  split_ifs <;> rfl

theorem run_reporting_ok (returned : block.run p = .ok () q) :
    (reporting message block).run p = .ok () q := by
  rw [reporting, run_tryCatch, returned]

theorem run_reporting_stop (stopped : block.run p = .error stop q)
    (other : ∀ t, stop ≠ .thrown t) : (reporting message block).run p = .error stop q := by
  rw [reporting, run_tryCatch, stopped]
  cases stop with
  | thrown t => exact absurd rfl (other t)
  | undefinedBehaviour | terminated | runsForever => rfl

/-! ## Objects that do not log to a file -/

theorem ofTask_reported (stopped : block.run p = .error stop q)
    (active : q.registry.defaultLogger ≠ none) :
    MainOutcome.ofTask ((reporting message block).run p) = .ofReported (.error stop) := by
  cases stop with
  | thrown t =>
      rw [run_reporting stopped, if_neg active]
      rfl
  | undefinedBehaviour | terminated | runsForever =>
      rw [run_reporting_stop stopped (fun t => by simp)]
      rfl

/-- A block that ends in the given way, and leaves a logger. -/
inductive NullEnded (p : LoggedProcess) :
    Except Stop Unit → EStateM.Result Stop LoggedProcess Unit → Prop
  | ok : NullEnded p (.ok ()) (.ok () (p.withDefault nullLogger))
  | error (stop : Stop) (q : LoggedProcess) (active : q.registry.defaultLogger ≠ none) :
      NullEnded p (.error stop) (.error stop q)

theorem ofTask_nullEnded (ends : NullEnded q outcome (block.run p)) :
    MainOutcome.ofTask ((reporting message block).run p) = .ofReported outcome := by
  cases run : block.run p with
  | ok u r =>
      rw [run] at ends
      cases ends
      rw [run_reporting_ok run]
      rfl
  | error stop r =>
      rw [run] at ends
      obtain _ | ⟨_, _, active⟩ := ends
      exact ofTask_reported run active

theorem destroyed_new (fresh : p.controls i = none) :
    ((p.withDefault nullLogger).setControl i (some {})).destroyed i = p.withDefault nullLogger := by
  have disabled : ((p.withDefault nullLogger).setControl i (some {})).controls i ≠ some ⟨true⟩ := by
    simp [setControl]
  rw [LoggedProcess.destroyed, if_neg disabled]
  simp only [setControl, controls_withDefault, Function.update_idem, ← fresh,
    Function.update_eq_self]
  rfl

/-- How a solver is made and used. -/
theorem run_withObject_logging {registered : Bool} (before : p.Before registered) :
    NullEnded p
      ((constructed registered derived).bind fun _ => inScope outcome destructor)
      ((withObject 0 derived destructor (logging outcome)).run p) := by
  rcases @run_make_before p derived registered before with
    ⟨stop, q, failed, run, active⟩ | ⟨-, made, run⟩
  · rw [failed, run_withObject_unmade run]
    exact .error stop q active
  · have active : ((p.withDefault nullLogger).setControl 0 (some {})).registry.defaultLogger ≠
        none := Option.some_ne_none _
    obtain ⟨s, whole, gone⟩ :=
      @run_withObject_ended _ _ _ derived destructor outcome _ _ run (run_logging active)
    have left : s.registry.defaultLogger ≠ none := by
      rcases gone with rfl | ⟨rfl, -, -⟩
      · rw [destroyed_new before.fresh]
        exact Option.some_ne_none _
      · exact active
    rw [made, whole]
    rcases ends : inScope outcome destructor with stop | u
    · exact .error stop s left
    · obtain rfl := gone.resolve_right fun stays => stays.2.1 ends
      rw [destroyed_new before.fresh]
      exact .ok

/-! ## Objects that log to a file -/

theorem destroyed_enabled (enabled : p.controls i = some ⟨true⟩) :
    (p.destroyed i).registry.defaultLogger = none := by
  rw [LoggedProcess.destroyed, if_pos enabled]
  rfl

theorem ofTask_reporting_thrown (threw : block.run p = .error (.thrown t) q)
    (silent : q.registry.defaultLogger = none) :
    MainOutcome.ofTask ((reporting message block).run p) = .undefinedBehaviour := by
  rw [run_reporting threw, if_pos silent]
  rfl

variable {world : MainWorld} {name : String} {rest : LoggingM Unit} {r : Except Stop Unit}
  {registered : Bool}

theorem run_enableDefaultLogging (unused : "global_logger" ∉ p.registry.loggers) :
    (enableDefaultLogging world i name).run p = match world.logFileError with
      | some t => .error (.thrown t) (p.setControl i (some ⟨true⟩))
      | none => .ok () ((p.setControl i (some ⟨true⟩)).withDefault
          (globalLogger (world.logFilename name ++ ".log") true)) := by
  rw [enableDefaultLogging, run_enableLogging, run_useFileLogger]
  cases world.logFileError with
  | some t => rfl
  | none => exact if_neg unused

/-- An object logs to a file: what is thrown from then on is not reported. -/
theorem ofTask_object (before : p.Before registered)
    (shape : registered = false → block = (enableDefaultLogging world 0 name >>= fun _ => rest))
    (ends : ∀ q : LoggedProcess, q.registry.defaultLogger ≠ none → rest.run q = ended q r) :
    MainOutcome.ofTask ((reporting message (withObject 0 derived destructor block)).run p) =
      .ofMade (constructed registered derived)
        (.ofLogged (inScope (world.logged r) destructor)) := by
  rcases @run_make_before p derived registered before with
    ⟨stop, q, failed, run, active⟩ | ⟨off, made, run⟩
  · rw [failed]
    exact ofTask_reported (run_withObject_unmade run) active
  · have unused : "global_logger" ∉
        ((p.withDefault nullLogger).setControl 0 (some {})).registry.loggers := by
      intro member
      rcases Finmap.mem_insert.mp member with same | there
      · exact absurd same (by decide)
      · exact before.unused there
    have enabled : ∀ q : LoggedProcess, (q.setControl 0 (some ⟨true⟩)).controls 0 =
        some ⟨true⟩ := by
      intro q
      simp [setControl]
    -- the block ends with the object enabled, whether or not the file could be opened
    obtain ⟨q, logged, used⟩ : ∃ q : LoggedProcess, q.controls 0 = some ⟨true⟩ ∧
        block.run ((p.withDefault nullLogger).setControl 0 (some {})) =
          ended q (world.logged r) := by
      rw [shape off, EStateM.run_bind, run_enableDefaultLogging unused, MainWorld.logged]
      cases world.logFileError with
      | some t => exact ⟨_, enabled _, rfl⟩
      | none =>
          refine ⟨_, ?_, ends _ (Option.some_ne_none _)⟩
          exact enabled ((p.withDefault nullLogger).setControl 0 (some {}))
    obtain ⟨s, whole, gone⟩ := run_withObject_ended run used
    rw [made]
    cases outcome : inScope _ destructor with
    | ok u =>
        rw [outcome] at whole
        rw [run_reporting_ok whole]
        rfl
    | error stop =>
        rw [outcome] at whole gone
        cases stop with
        | thrown t =>
            obtain rfl := gone.resolve_right fun stays => stays.2.2 t rfl
            exact ofTask_reporting_thrown whole (destroyed_enabled logged)
        | undefinedBehaviour | terminated | runsForever =>
            rw [run_reporting_stop whole (fun t => by simp)]
            rfl

/-! ## The branches of `main` -/

theorem run_spdlogCall_bind {f : Unit → LoggingM Unit}
    (active : p.registry.defaultLogger ≠ none) : (spdlogCall >>= f).run p = (f ()).run p := by
  rw [EStateM.run_bind, run_spdlogCall, if_neg active]

variable {ma : MainArgs}

theorem run_soTask (before : p.Before ma.disableLogging) :
    NullEnded p (world.soEnd ma)
      ((soTask world ma.controllerAddress ma.loadBalancingStrategy).run p) :=
  run_withObject_logging before

theorem run_moTask (before : p.Before ma.disableLogging) :
    NullEnded p (world.moEnd ma)
      ((moTask world ma.controllerAddress ma.loadBalancingStrategy).run p) :=
  run_withObject_logging before

/-- Once the null logger has been used, no further solver is made. -/
theorem run_moTask_second (before : p.Before registered) {address : String}
    {strategy : LoadBalancingStrategy} :
    NullEnded p (.error (.thrown (alreadyExists nullLogger)))
      ((moTask world address strategy).run (p.withDefault nullLogger)) := by
  have used : (p.withDefault nullLogger).Before true := by
    refine ⟨by simp [withDefault], before.fresh, Option.some_ne_none _, fun member => ?_⟩
    rcases Finmap.mem_insert.mp member with same | there
    · exact absurd same (by decide)
    · exact before.unused there
  have ends := @run_withObject_logging _ (world.makeSolver ⟨address, .ofNat moAlgorithms.length,
    strategy⟩) world.destroySolver world.runMoBenchmark true used
  cases run : (moTask world address strategy).run (p.withDefault nullLogger) with
  | ok u q =>
      rw [moTask] at run
      rw [run] at ends
      cases ends
  | error stop q =>
      rw [moTask] at run
      rw [run] at ends
      obtain _ | ⟨_, _, active⟩ := ends
      exact .error _ q active

theorem run_benchmarks (before : p.Before ma.disableLogging)
    (chosen : (ma.runSOBenchmark || ma.runMOBenchmark) = true) :
    NullEnded p (world.benchmarkEnd ma)
      ((benchmarkControllerTask world ma.controllerAddress ma.loadBalancingStrategy
        ma.runSOBenchmark ma.runMOBenchmark).run p) := by
  rw [benchmarkControllerTask, setLocalCacheDir, run_spdlogCall_bind before.active,
    MainWorld.benchmarkEnd]
  cases so : ma.runSOBenchmark with
  | false =>
      obtain mo : ma.runMOBenchmark = true := by simpa [so] using chosen
      simp only [mo, Bool.false_eq_true, if_false, if_true]
      exact run_moTask before
  | true =>
      simp only [if_true]
      have first := @run_soTask p world ma before
      rw [EStateM.run_bind]
      cases run : (soTask world ma.controllerAddress ma.loadBalancingStrategy).run p with
      | error stop q =>
          rw [run] at first
          generalize world.soEnd ma = outcome at first
          obtain _ | ⟨_, _, active⟩ := first
          exact .error stop q active
      | ok u q =>
          rw [run] at first
          generalize world.soEnd ma = outcome at first
          cases first
          cases ma.runMOBenchmark with
          | true => exact run_moTask_second before
          | false => exact .ok

theorem run_createWorkerDirectories :
    (createWorkerDirectories world ma).run p = ended p (world.directoriesEnd ma) := by
  rw [createWorkerDirectories, MainWorld.directoriesEnd]
  split_ifs
  · rfl
  · cases world.createDirectories (joinPath (ma.workerRoot world.uuid) "cache") <;> rfl

/-- The default task. -/
theorem ofTask_default (before : p.Before ma.disableLogging) (config : SolverConfig) :
    MainOutcome.ofTask ((runController
        (defaultControllerTask world config ma.disableLogging)).run p) =
      .ofMade (world.makeProblem.bind fun _ =>
          constructed ma.disableLogging (world.makeSolver config))
        (.ofLogged (inScope (world.logged world.runDefault) world.destroySolver)) := by
  have run : (defaultControllerTask world config ma.disableLogging).run p =
      match ended p world.makeProblem with
      | .ok _ q => (withObject 0 (world.makeSolver config) world.destroySolver
          (useSolver world ma.disableLogging)).run q
      | .error stop q => .error stop q := by
    rw [defaultControllerTask, setLocalCacheDir, run_spdlogCall_bind before.active,
      EStateM.run_bind, run_logging before.active]
    cases world.makeProblem <;> rfl
  cases problem : world.makeProblem with
  | error stop =>
      rw [problem] at run
      exact ofTask_reported run before.active
  | ok u =>
      rw [problem] at run
      have same : (runController (defaultControllerTask world config ma.disableLogging)).run p =
          (reporting "Aborting distributed solver, an exception occurred: "
            (withObject 0 (world.makeSolver config) world.destroySolver
              (useSolver world ma.disableLogging))).run p := by
        rw [runController, reporting, reporting, run_tryCatch, run_tryCatch, run]
        rfl
      rw [same]
      have shape : ma.disableLogging = false → useSolver world ma.disableLogging =
          (enableDefaultLogging world 0 "./logs/solver" >>= fun _ => logging world.runDefault) := by
        intro enabled
        rw [useSolver, enabled]
        rfl
      exact ofTask_object before shape fun q active => run_logging active

/-- The worker. -/
theorem ofTask_worker (before : p.Before ma.disableLogging) (address : String) (mode : WorkerMode)
    (minimum : UInt64) (settings : String) :
    MainOutcome.ofTask
        ((runWorker world address mode minimum settings ma.disableLogging).run p) =
      .ofMade (constructed ma.disableLogging
          (world.makeWorker ⟨address, mode, minimum, 1000, 3000000, 10000, settings⟩))
        (.ofLogged (inScope (world.logged (.error world.clientLoop)) world.destroyWorker)) := by
  have shape : ma.disableLogging = false → useWorker world ma.disableLogging =
      (enableDefaultLogging world 0 "./logs/worker" >>= fun _ => setLocalCacheDir >>= fun _ =>
        registerUdpProvider >>= fun _ => throw world.clientLoop) := by
    intro enabled
    rw [useWorker, enabled]
    rfl
  refine ofTask_object before shape fun q active => ?_
  rw [setLocalCacheDir, run_spdlogCall_bind active, registerUdpProvider,
    run_spdlogCall_bind active]
  rfl

theorem ofTask_runTask (before : p.Before ma.disableLogging) :
    MainOutcome.ofTask ((runTask world ma).run p) = world.outcome ma := by
  rw [runTask, MainWorld.outcome, MainWorld.courseEnd, MainWorld.objectEnd, MainWorld.useEnd,
    MainWorld.destructorEnd]
  by_cases controller : ma.isController = true
  · simp only [if_pos controller]
    by_cases chosen : (ma.runSOBenchmark || ma.runMOBenchmark) = true
    · have benchmarks : ma.Benchmarks := ⟨controller, chosen⟩
      rw [if_pos chosen, if_pos benchmarks, if_pos benchmarks, runController,
        ofTask_nullEnded (run_benchmarks before chosen)]
      cases world.benchmarkEnd ma <;> rfl
    · have object : ¬ma.Benchmarks := fun is => chosen is.2
      rw [if_neg chosen, if_neg object, if_neg object]
      exact ofTask_default before _
  · have object : ¬ma.Benchmarks := fun is => controller is.1
    simp only [if_neg controller, if_neg object]
    rw [EStateM.run_bind, run_createWorkerDirectories]
    have worker := @ofTask_worker p world ma before ma.workerAddress ma.mode ma.minPopSize
      (joinPath (ma.settingsDir world.uuid) "worker_settings.xml")
    cases created : world.directoriesEnd ma with
    | ok u => exact worker
    | error stop =>
        rw [MainWorld.directoriesEnd] at created
        split_ifs at created
        split at created
        · obtain rfl := Except.error.inj created
          rfl
        · cases created

end Blocks

/-! ## How the program ends -/

theorem before_start : LoggedProcess.start.Before false where
  null := by decide
  fresh := rfl
  active := Option.some_ne_none _
  unused := by decide

theorem before_muted : (LoggedProcess.start.withDefault nullLogger).Before true where
  null := by decide
  fresh := rfl
  active := Option.some_ne_none _
  unused := by decide

theorem main_eq {world : MainWorld} {argv : List String} {ma : MainArgs}
    (accepted : parseMainArgs argv = .ok (some ma)) : main world argv = world.outcome ma := by
  rw [main, accepted]
  simp only
  cases disable : ma.disableLogging with
  | true =>
      have registers : useNullLogger.run .start =
          .ok () (LoggedProcess.start.withDefault nullLogger) := by
        rw [run_useNullLogger, if_neg (by decide)]
      rw [if_pos rfl, registers]
      exact ofTask_runTask (disable ▸ before_muted)
  | false =>
      rw [if_neg Bool.false_ne_true]
      exact ofTask_runTask (disable ▸ before_start)

open LoggedProcess in
/-- With logging disabled nothing is made, and not both benchmarks are run to an end. -/
theorem MainWorld.courseEnd_ne_ok (world : MainWorld) {ma : MainArgs}
    (refused : ma.disableLogging = true ∨
      ma.isController = true ∧ ma.runSOBenchmark = true ∧ ma.runMOBenchmark = true) :
    world.courseEnd ma ≠ .ok () := by
  have never : ∀ (first : Except Stop Unit) (stop : Stop),
      (first.bind fun _ => (.error stop : Except Stop Unit)) ≠ .ok () := by
    intro first stop is
    cases first <;> cases is
  rcases refused with disable | ⟨controller, so, mo⟩
  · have benchmarks : world.benchmarkEnd ma = .error (.thrown (alreadyExists nullLogger)) := by
      rw [benchmarkEnd, soEnd, moEnd, disable]
      split_ifs <;> rfl
    rw [courseEnd, benchmarks, disable]
    split_ifs
    · exact never (.ok ()) _
    · exact never world.makeProblem _
    · exact never (world.directoriesEnd ma) _
  · have benchmarks : ma.Benchmarks := ⟨controller, by rw [so]; rfl⟩
    rw [courseEnd, if_pos benchmarks, benchmarkEnd, if_pos so, if_pos mo]
    exact never _ _

open MainWorld in
/-- How the program ends, whatever its arguments and whatever its parts do.  An exception of
    the parser is caught by nobody, and arguments that are not accepted return two.  What is
    thrown after logging to a file has been asked for is never reported, it is undefined.  The
    program runs for ever, or the process is ended, exactly if a part that it comes to does so,
    and it returns zero exactly if all of them return; with logging disabled or both benchmarks
    they do not.  If it returns in another way, the code is two. -/
theorem main_outcome (world : MainWorld) (argv : List String) :
    (main world argv = .terminates ↔
      (∃ e, parseMainArgs argv = .error e) ∨ ∃ ma, parseMainArgs argv = .ok (some ma) ∧
        (world.courseEnd ma = .error .terminated ∨
          world.LogsToFile ma ∧ world.objectEnd ma = .error .terminated)) ∧
    (main world argv = .undefinedBehaviour ↔
      ∃ ma, parseMainArgs argv = .ok (some ma) ∧
        (world.courseEnd ma = .error .undefinedBehaviour ∨
          world.LogsToFile ma ∧ (world.objectEnd ma = .error .undefinedBehaviour ∨
            ∃ t, world.objectEnd ma = .error (.thrown t)))) ∧
    (main world argv = .runsForever ↔
      ∃ ma, parseMainArgs argv = .ok (some ma) ∧
        (world.courseEnd ma = .error .runsForever ∨
          world.LogsToFile ma ∧ world.objectEnd ma = .error .runsForever)) ∧
    (main world argv = .returns 0 ↔
      ∃ ma, parseMainArgs argv = .ok (some ma) ∧ world.courseEnd ma = .ok () ∧
        (world.LogsToFile ma → world.objectEnd ma = .ok ())) ∧
    (main world argv = .returns 2 ↔
      parseMainArgs argv = .ok none ∨ ∃ ma, parseMainArgs argv = .ok (some ma) ∧
        ∃ t, world.courseEnd ma = .error (.thrown t)) ∧
    (∀ code, main world argv = .returns code → code = 0 ∨ code = 2) ∧
    ∀ ma, parseMainArgs argv = .ok (some ma) → (ma.disableLogging = true ∨
      ma.isController = true ∧ ma.runSOBenchmark = true ∧ ma.runMOBenchmark = true) →
      main world argv ≠ .returns 0 := by
  cases parsed : parseMainArgs argv with
  | error e => simp [main, parsed]
  | ok accepted =>
      cases accepted with
      | none => simp [main, parsed]
      | some ma =>
          have logs : world.LogsToFile ma ↔ ¬ma.Benchmarks ∧ world.courseEnd ma = .ok () :=
            ⟨fun is => ⟨is.object, is.made⟩, fun is => ⟨is.1, is.2⟩⟩
          have refused := @MainWorld.courseEnd_ne_ok world ma
          rw [main_eq parsed, outcome]
          rcases course : world.courseEnd ma with (t | _ | _ | _) | u
          · simp [MainOutcome.ofMade, MainOutcome.ofReported, course, logs]
          · simp [MainOutcome.ofMade, MainOutcome.ofReported, course, logs]
          · simp [MainOutcome.ofMade, MainOutcome.ofReported, course, logs]
          · simp [MainOutcome.ofMade, MainOutcome.ofReported, course, logs]
          · have made : ¬(ma.disableLogging = true ∨ ma.isController = true ∧
                ma.runSOBenchmark = true ∧ ma.runMOBenchmark = true) :=
              fun is => refused is course
            by_cases benchmarks : ma.Benchmarks
            · simpa [MainOutcome.ofMade, course, logs, benchmarks] using made
            · rcases used : world.objectEnd ma with (t | _ | _ | _) | u
              · simp [MainOutcome.ofMade, MainOutcome.ofLogged, course, logs, benchmarks, used]
              · simp [MainOutcome.ofMade, MainOutcome.ofLogged, course, logs, benchmarks, used]
              · simp [MainOutcome.ofMade, MainOutcome.ofLogged, course, logs, benchmarks, used]
              · simp [MainOutcome.ofMade, MainOutcome.ofLogged, course, logs, benchmarks, used]
              · simpa [MainOutcome.ofMade, MainOutcome.ofLogged, course, logs, benchmarks, used]
                  using made

end Metasolver
