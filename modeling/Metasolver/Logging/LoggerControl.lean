import Metasolver.Lib.Effects
import Metasolver.Lib.Epochs
import Metasolver.Lib.UnorderedMap

/-!
# The loggers of a process

spdlog keeps one registry of loggers for the process, and the default logger that
`spdlog::info` and the others write to.  `use_null_logger` and `use_file_logger`
(`logger_init.cpp`) register a logger under a fixed name and make it the default one; a name
that is registered is refused.  `shutdown_logger` drops all loggers, and the default one
with them.

`logger_control` is the base class of solvers and workers.  It uses the null logger when it
is constructed and whenever logging is disabled, the file logger when logging is enabled,
and it shuts spdlog down when it is destroyed with logging enabled.
-/

namespace Metasolver

open Exec Effects

/-- What is thrown: an object of a class derived from `std::exception`, a string, or
    something else. -/
inductive Thrown where
  | exception (what : String)
  | string (s : String)
  | charPtr (s : String)
  | other
  deriving DecidableEq, Repr

/-- The ways in which a call does not return. -/
inductive Stop where
  | thrown (t : Thrown)
  | undefinedBehaviour
  /-- `std::terminate`, which ends the process without any unwinding. -/
  | terminated
  | runsForever
  deriving DecidableEq, Repr

inductive LogLevel where
  | trace
  | info
  | off
  deriving DecidableEq, Repr

inductive Sink where
  | stdoutColor
  | basicFile (filePath : String)
  | null
  deriving DecidableEq, Repr

structure Logger where
  name : String
  sinks : List Sink
  level : LogLevel
  deriving DecidableEq, Repr

/-- `spdlog::details::registry`. -/
structure LoggerRegistry where
  loggers : UnorderedMap String Logger
  defaultLogger : Option Logger

/-- A `logger_control` object. -/
structure LoggerControl where
  loggerEnabled : Bool := false
  deriving DecidableEq, Repr

abbrev ObjectId := Nat

/-- The loggers of a process and the solvers and workers that are alive in it. -/
structure LoggedProcess where
  registry : LoggerRegistry
  controls : ObjectId → Option LoggerControl

abbrev LoggingM := EStateM Stop LoggedProcess

/-- The logger that spdlog starts with (`registry-inl.h:39-47`). -/
def spdlogLogger : Logger := ⟨"", [.stdoutColor], .info⟩

def nullLogger : Logger := ⟨"null_logger", [.null], .off⟩

def globalLogger (filePath : String) (enableConsole : Bool) : Logger where
  name := "global_logger"
  sinks := (if enableConsole then [.stdoutColor] else []) ++ [.basicFile filePath]
  level := .trace

namespace LoggedProcess

def start : LoggedProcess where
  registry := ⟨Finmap.singleton spdlogLogger.name spdlogLogger, some spdlogLogger⟩
  controls _ := none

def setControl (p : LoggedProcess) (i : ObjectId) (control : Option LoggerControl) :
    LoggedProcess :=
  { p with controls := Function.update p.controls i control }

/-- The process with a further logger, which is the default one. -/
def withDefault (p : LoggedProcess) (new : Logger) : LoggedProcess :=
  { p with registry := ⟨p.registry.loggers.insert new.name new, some new⟩ }

def shutDown (p : LoggedProcess) : LoggedProcess := { p with registry := ⟨∅, none⟩ }

end LoggedProcess

/-! ## spdlog -/

/-- `spdlog::register_logger` (`registry-inl.h:253-263`). -/
def registerLogger (new : Logger) : LoggingM Unit := do
  if new.name ∈ (← get).registry.loggers then
    throw (.thrown (.exception ("logger with name '" ++ new.name ++ "' already exists")))
  modify fun p =>
    { p with registry := { p.registry with loggers := p.registry.loggers.insert new.name new } }

/-- `spdlog::set_default_logger` (`registry-inl.h:105-111`). -/
def setDefaultLogger (new : Logger) : LoggingM Unit :=
  modify fun p => { p with registry := ⟨p.registry.loggers.insert new.name new, some new⟩ }

/-- `spdlog::info` and the others dereference the default logger (`spdlog.h:161-189`). -/
def spdlogCall : LoggingM Unit := do
  match (← get).registry.defaultLogger with
  | none => throw .undefinedBehaviour
  | some _ => pure ()

/-! ## `logger_init.cpp` -/

def useNullLogger : LoggingM Unit := do
  registerLogger nullLogger
  setDefaultLogger nullLogger

/-- `fileError` is what creating the directories or opening the file throws, if it does. -/
def useFileLogger (filePath : String) (enableConsole : Bool) (fileError : Option Thrown) :
    LoggingM Unit := do
  match fileError with
  | some t => throw (.thrown t)
  | none =>
      registerLogger (globalLogger filePath enableConsole)
      setDefaultLogger (globalLogger filePath enableConsole)

/-- `spdlog::shutdown` drops all loggers (`registry-inl.h:197-216`). -/
def shutdownLogger : LoggingM Unit := modify LoggedProcess.shutDown

/-! ## `logger_control.cpp` -/

namespace LoggerControl

/-- The constructor. -/
def construct (i : ObjectId) : LoggingM Unit := do
  useNullLogger
  modify fun p => p.setControl i (some {})

/-- The destructor. -/
def destroy (i : ObjectId) : LoggingM Unit := do
  if (← get).controls i = some ⟨true⟩ then
    shutdownLogger
  modify fun p => p.setControl i none

def enableLogging (i : ObjectId) (logFilePath : String) (writeToConsole : Bool)
    (fileError : Option Thrown) : LoggingM Unit := do
  modify fun p => p.setControl i (some ⟨true⟩)
  useFileLogger logFilePath writeToConsole fileError

def disableLogging (i : ObjectId) : LoggingM Unit := do
  modify fun p => p.setControl i (some ⟨false⟩)
  useNullLogger

/-- A solver or a worker is constructed: first the base, then the rest, which may throw, end
    the process or never return. -/
def make (i : ObjectId) (derived : Except Stop Unit) : LoggingM Unit := do
  construct i
  match derived with
  | .ok () => pure ()
  | .error (.thrown t) =>
      destroy i
      throw (.thrown t)
  | .error stop => throw stop

end LoggerControl

/-- What can be done about logging in a process. -/
inductive LoggingCall where
  | make (i : ObjectId) (derived : Except Stop Unit)
  | enableLogging (i : ObjectId) (logFilePath : String) (writeToConsole : Bool)
      (fileError : Option Thrown)
  | disableLogging (i : ObjectId)
  | destroy (i : ObjectId)
  | useNullLogger
  | log

namespace LoggedProcess

def perform : LoggingCall → LoggingM Unit
  | .make i derived => LoggerControl.make i derived
  | .enableLogging i logFilePath writeToConsole fileError =>
      LoggerControl.enableLogging i logFilePath writeToConsole fileError
  | .disableLogging i => LoggerControl.disableLogging i
  | .destroy i => LoggerControl.destroy i
  | .useNullLogger => Metasolver.useNullLogger
  | .log => spdlogCall

/-- Objects are made once, and used while they are alive. -/
def possible (p : LoggedProcess) : LoggingCall → Bool
  | .make i _ => (p.controls i).isNone
  | .enableLogging i _ _ _ | .disableLogging i | .destroy i => (p.controls i).isSome
  | .useNullLogger | .log => true

/-- The process after a call that has returned or thrown. -/
def step (p : LoggedProcess) (e : LoggingCall) : Option LoggedProcess :=
  if p.possible e then
    match (perform e).run p with
    | .ok _ q => some q
    | .error (.thrown _) q => some q
    | .error _ _ => none
  else none

end LoggedProcess

/-! ## What the calls do -/

section Runs

variable {p q : LoggedProcess} {i : ObjectId} {new : Logger} {filePath : String} {console : Bool}
  {fileError : Option Thrown} {e : LoggingCall} {es : List LoggingCall}

namespace LoggedProcess

@[simp] theorem registry_setControl (control : Option LoggerControl) :
    (p.setControl i control).registry = p.registry := rfl

theorem controls_setControl_of_ne {j : ObjectId} {control : Option LoggerControl} (h : i ≠ j) :
    (p.setControl j control).controls i = p.controls i := Function.update_of_ne h _ _

@[simp] theorem controls_withDefault : (p.withDefault new).controls = p.controls := rfl

@[simp] theorem controls_shutDown : p.shutDown.controls = p.controls := rfl

/-- A name that is registered is refused. -/
def alreadyExists (new : Logger) : Thrown :=
  .exception ("logger with name '" ++ new.name ++ "' already exists")

end LoggedProcess

open LoggedProcess

theorem run_registerLogger :
    (registerLogger new).run p =
      if new.name ∈ p.registry.loggers then .error (.thrown (alreadyExists new)) p
      else .ok () { p with registry :=
        { p.registry with loggers := p.registry.loggers.insert new.name new } } := by
  have body : (registerLogger new).run p = (if new.name ∈ p.registry.loggers
      then throw (.thrown (alreadyExists new))
      else modify fun p => { p with registry :=
        { p.registry with loggers := p.registry.loggers.insert new.name new } } :
      LoggingM Unit).run p := by
    rw [registerLogger, EStateM.run_bind, EStateM.run_get]
    by_cases registered : new.name ∈ p.registry.loggers
    · simp only [registered, if_true]
      rfl
    · simp only [registered, if_false]
  rw [body]
  split_ifs <;> rfl

theorem run_register_setDefault :
    (registerLogger new >>= fun _ => setDefaultLogger new).run p =
      if new.name ∈ p.registry.loggers then .error (.thrown (alreadyExists new)) p
      else .ok () (p.withDefault new) := by
  rw [EStateM.run_bind, run_registerLogger]
  by_cases registered : new.name ∈ p.registry.loggers
  · rw [if_pos registered, if_pos registered]
  · rw [if_neg registered, if_neg registered]
    simp only [setDefaultLogger, EStateM.run_modify, Finmap.insert_insert]
    rfl

theorem run_spdlogCall :
    spdlogCall.run p = if p.registry.defaultLogger = none
      then .error .undefinedBehaviour p else .ok () p := by
  rw [spdlogCall, EStateM.run_bind, EStateM.run_get]
  cases found : p.registry.defaultLogger with
  | none =>
      simp only [found]
      rfl
  | some logger =>
      simp only [found]
      rfl

theorem run_useNullLogger :
    useNullLogger.run p = if nullLogger.name ∈ p.registry.loggers
      then .error (.thrown (alreadyExists nullLogger)) p else .ok () (p.withDefault nullLogger) :=
  run_register_setDefault

theorem run_useFileLogger :
    (useFileLogger filePath console fileError).run p = match fileError with
      | some t => .error (.thrown t) p
      | none => if (globalLogger filePath console).name ∈ p.registry.loggers
          then .error (.thrown (alreadyExists (globalLogger filePath console))) p
          else .ok () (p.withDefault (globalLogger filePath console)) := by
  cases fileError with
  | some t => rfl
  | none => exact run_register_setDefault

namespace LoggerControl

theorem run_construct :
    (construct i).run p = if nullLogger.name ∈ p.registry.loggers
      then .error (.thrown (alreadyExists nullLogger)) p
      else .ok () ((p.withDefault nullLogger).setControl i (some {})) := by
  rw [construct, EStateM.run_bind, run_useNullLogger]
  split_ifs <;> rfl

theorem run_destroy :
    (destroy i).run p = .ok () ((if p.controls i = some ⟨true⟩ then p.shutDown else p).setControl
      i none) := by
  rw [destroy, EStateM.run_bind, EStateM.run_get]
  by_cases enabled : p.controls i = some ⟨true⟩
  · simp only [enabled, if_true]
    rfl
  · simp only [enabled, if_false]
    rfl

theorem run_enableLogging :
    (enableLogging i filePath console fileError).run p =
      (useFileLogger filePath console fileError).run (p.setControl i (some ⟨true⟩)) := rfl

theorem run_disableLogging :
    (disableLogging i).run p = useNullLogger.run (p.setControl i (some ⟨false⟩)) := rfl

/-- An object whose base cannot be constructed is not made, and one whose rest throws is
    gone, but its null logger stays. -/
theorem run_make {derived : Except Stop Unit} (fresh : p.controls i = none) :
    (make i derived).run p = if nullLogger.name ∈ p.registry.loggers
      then .error (.thrown (alreadyExists nullLogger)) p
      else match derived with
        | .ok () => .ok () ((p.withDefault nullLogger).setControl i (some {}))
        | .error (.thrown t) => .error (.thrown t) (p.withDefault nullLogger)
        | .error stop => .error stop ((p.withDefault nullLogger).setControl i (some {})) := by
  have parts : make i derived = construct i >>= fun _ => match derived with
      | .ok () => pure ()
      | .error (.thrown t) => destroy i >>= fun _ => throw (.thrown t)
      | .error stop => throw stop := by
    rcases derived with (t | _ | _ | _) | _ <;> rfl
  rw [parts, EStateM.run_bind, run_construct]
  by_cases registered : nullLogger.name ∈ p.registry.loggers
  · rw [if_pos registered, if_pos registered]
  · rw [if_neg registered, if_neg registered]
    rcases derived with (t | _ | _ | _) | _
    case ok => rfl
    case error.undefinedBehaviour => rfl
    case error.terminated => rfl
    case error.runsForever => rfl
    case error.thrown =>
        have disabled : ((p.withDefault nullLogger).setControl i (some {})).controls i ≠
            some ⟨true⟩ := by
          simp [setControl]
        have gone : ((p.withDefault nullLogger).setControl i (some {})).setControl i none =
            p.withDefault nullLogger := by
          simp only [setControl, controls_withDefault, Function.update_idem, ← fresh,
            Function.update_eq_self]
          rfl
        simp only [EStateM.run_bind, run_destroy]
        rw [if_neg disabled, gone]
        rfl

end LoggerControl

namespace LoggedProcess

/-! ## The registry is a machine of epochs -/

/-- The names that are registered, and that of the default logger. -/
def epoch (p : LoggedProcess) : Epochs.State String :=
  ⟨p.registry.loggers.keys, p.registry.defaultLogger.map Logger.name⟩

/-- A logger is used if its name is not registered. -/
def takes (p : LoggedProcess) (name : String) : List (Epochs.Event String) :=
  if name ∈ p.registry.loggers then [] else [.takes name]

/-- What a call does to the names. -/
def effect (p : LoggedProcess) : LoggingCall → List (Epochs.Event String)
  | .make _ _ | .disableLogging _ | .useNullLogger => p.takes nullLogger.name
  | .enableLogging _ logFilePath writeToConsole fileError =>
      if fileError = none then p.takes (globalLogger logFilePath writeToConsole).name else []
  | .destroy i => if p.controls i = some ⟨true⟩ then [.releases] else []
  | .log => []

/-- What a run does to the names. -/
def history (p : LoggedProcess) : List LoggingCall → List (Epochs.Event String)
  | [] => []
  | e :: es => p.effect e ++ match p.step e with
    | none => []
    | some q => q.history es

theorem exec_takes (p : LoggedProcess) (new : Logger) :
    exec Epochs.step p.epoch (p.takes new.name) =
      some (if new.name ∈ p.registry.loggers then p else p.withDefault new).epoch := by
  rw [takes]
  split_ifs with registered
  · rfl
  · have free : new.name ∉ p.epoch.taken := by rwa [epoch, Finmap.mem_keys]
    have keys : (p.registry.loggers.insert new.name new).keys =
        insert new.name p.registry.loggers.keys := by
      ext name
      simp [Finmap.mem_keys]
    have one := Epochs.step_takes_iff.mpr ⟨free, rfl⟩
    rw [exec_cons, one]
    simp [epoch, withDefault, keys]

/-- A call that has returned or thrown. -/
theorem step_iff : p.step e = some q ↔ p.possible e = true ∧
    ((perform e).run p = .ok () q ∨ ∃ t, (perform e).run p = .error (.thrown t) q) := by
  rw [step]
  cases p.possible e with
  | false => simp
  | true =>
      cases run : (perform e).run p with
      | ok u q' => simp
      | error s q' => cases s <;> simp

@[simp] theorem epoch_setControl (control : Option LoggerControl) :
    (p.setControl i control).epoch = p.epoch := rfl

/-- Whether it returns or throws, a call does to the registry what its effect says. -/
theorem exec_effect (possible : p.possible e = true) :
    exec Epochs.step p.epoch (p.effect e) = some (final ((perform e).run p)).epoch := by
  have null := exec_takes p nullLogger
  cases e with
  | make i derived =>
      rw [effect, null, perform, LoggerControl.run_make (Option.isNone_iff_eq_none.mp possible)]
      split_ifs
      · rfl
      · rcases derived with (t | _ | _) | _ <;> rfl
  | enableLogging i filePath console fileError =>
      rw [effect, perform, LoggerControl.run_enableLogging, run_useFileLogger]
      cases fileError with
      | some t => rfl
      | none =>
          rw [if_pos rfl, exec_takes p (globalLogger filePath console)]
          by_cases registered : (globalLogger filePath console).name ∈ p.registry.loggers
          · simp only [registry_setControl, registered, if_true]
            rfl
          · simp only [registry_setControl, registered, if_false]
            rfl
  | disableLogging i =>
      rw [effect, null, perform, LoggerControl.run_disableLogging, run_useNullLogger]
      by_cases registered : nullLogger.name ∈ p.registry.loggers
      · simp only [registry_setControl, registered, if_true]
        rfl
      · simp only [registry_setControl, registered, if_false]
        rfl
  | destroy i =>
      rw [effect, perform, LoggerControl.run_destroy]
      split_ifs <;> rfl
  | useNullLogger =>
      rw [effect, null, perform, run_useNullLogger]
      split_ifs <;> rfl
  | log =>
      rw [effect, perform, run_spdlogCall]
      split_ifs <;> rfl

theorem final_of_step (h : p.step e = some q) :
    p.possible e = true ∧ final ((perform e).run p) = q := by
  obtain ⟨possible, returned | ⟨t, threw⟩⟩ := step_iff.mp h
  · exact ⟨possible, by rw [returned]; rfl⟩
  · exact ⟨possible, by rw [threw]; rfl⟩

/-- The history of a run is one of epochs: a name is registered at most once between two
    shutdowns. -/
theorem exec_history (run : exec step p es = some q) :
    exec Epochs.step p.epoch (p.history es) = some q.epoch := by
  induction es generalizing p with
  | nil =>
      obtain rfl : p = q := by simpa using run
      rfl
  | cons e es ih =>
      obtain ⟨r, hr, rest⟩ := exec_cons_some.mp run
      obtain ⟨possible, rfl⟩ := final_of_step hr
      rw [history, hr, exec_append, exec_effect possible]
      exact ih rest

/-! ## Objects and their null logger -/

theorem controls_useNullLogger :
    (final (Metasolver.useNullLogger.run p)).controls = p.controls := by
  rw [run_useNullLogger]
  split_ifs <;> rfl

theorem controls_useFileLogger :
    (final ((useFileLogger filePath console fileError).run p)).controls = p.controls := by
  rw [run_useFileLogger]
  cases fileError with
  | some t => rfl
  | none =>
      simp only
      split_ifs <;> rfl

/-- Members of an object that is alive are assigned, or it goes. -/
theorem alive_setControl {j : ObjectId} {control : Option LoggerControl}
    (was : (p.controls j).isSome = true)
    (alive : (p.setControl j control).controls i ≠ none) : p.controls i ≠ none := by
  rintro gone
  have other : i ≠ j := by
    rintro rfl
    simp [gone] at was
  rw [controls_setControl_of_ne other] at alive
  exact alive gone

/-- An object that is alive has been constructed, so its null logger was registered. -/
theorem alive_final (possible : p.possible e = true)
    (alive : (final ((perform e).run p)).controls i ≠ none) :
    p.controls i ≠ none ∨ nullLogger.name ∈ (final ((perform e).run p)).registry.loggers := by
  cases e with
  | make j derived =>
      rw [perform, LoggerControl.run_make (Option.isNone_iff_eq_none.mp possible)] at alive ⊢
      split_ifs at alive ⊢ with registered
      · exact Or.inr registered
      · right
        rcases derived with (t | _ | _) | _ <;> exact Finmap.mem_insert.mpr (Or.inl rfl)
  | enableLogging j filePath console fileError =>
      rw [perform, LoggerControl.run_enableLogging, controls_useFileLogger] at alive
      exact Or.inl (alive_setControl possible alive)
  | disableLogging j =>
      rw [perform, LoggerControl.run_disableLogging, controls_useNullLogger] at alive
      exact Or.inl (alive_setControl possible alive)
  | destroy j =>
      rw [perform, LoggerControl.run_destroy] at alive
      have there : (p.setControl j none).controls i ≠ none := by
        intro gone
        apply alive
        split_ifs <;> exact gone
      exact Or.inl (alive_setControl possible there)
  | useNullLogger =>
      rw [perform, controls_useNullLogger] at alive
      exact Or.inl alive
  | log =>
      rw [perform, run_spdlogCall] at alive
      left
      split_ifs at alive <;> exact alive

/-- A name that is registered stays so until a shutdown. -/
theorem registered_final {name : String} (possible : p.possible e = true)
    (kept : .releases ∉ p.effect e) (registered : name ∈ p.registry.loggers) :
    name ∈ (final ((perform e).run p)).registry.loggers := by
  rcases Epochs.mem_taken_of_exec (exec_effect possible) (Finmap.mem_keys.mpr registered) with
    still | released
  · exact Finmap.mem_keys.mp still
  · exact absurd released kept

/-- As long as nothing has been shut down, an object that is alive has its null logger. -/
theorem null_of_alive (before : ∀ i, p.controls i ≠ none → nullLogger.name ∈ p.registry.loggers)
    (run : exec step p es = some q) (kept : .releases ∉ p.history es)
    (alive : q.controls i ≠ none) : nullLogger.name ∈ q.registry.loggers := by
  induction es generalizing p with
  | nil =>
      obtain rfl : p = q := by simpa using run
      exact before i alive
  | cons e es ih =>
      obtain ⟨r, hr, rest⟩ := exec_cons_some.mp run
      rw [history, hr, List.mem_append, not_or] at kept
      refine ih ?_ rest kept.2
      intro j there
      obtain ⟨possible, rfl⟩ := final_of_step hr
      rcases alive_final possible there with was | registered
      · exact registered_final possible kept.1 (before j was)
      · exact registered

/-! ## Every run of a process -/

/-- The names that have been registered since the last shutdown. -/
def registered (es : List LoggingCall) : List String :=
  Epochs.present [spdlogLogger.name] (start.history es)

theorem epoch_run (run : exec step start es = some q) : q.epoch = .having (registered es) :=
  Epochs.exec_present (exec_history run)

theorem mem_registered (name : String) (run : exec step start es = some q) :
    name ∈ q.registry.loggers ↔ name ∈ registered es := by
  have taken : q.registry.loggers.keys = (registered es).toFinset :=
    congrArg Epochs.State.taken (epoch_run run)
  rw [← Finmap.mem_keys, taken, List.mem_toFinset]

end LoggedProcess

end Runs

open LoggedProcess in
/-- In every run there is a shutdown between two registrations of a name.  A constructor fails
    in its base, and disabling throws, exactly if the null logger has been registered since the
    last one; enabling throws exactly if the file cannot be opened or the one name of all log
    files has been registered; and logging is undefined exactly if no logger has.  As long as
    nothing has been shut down, a second object cannot be made, and logging cannot be
    disabled. -/
theorem loggers_registered_once (es : List LoggingCall) (p : LoggedProcess)
    (run : exec step start es = some p) :
    (∀ name before between after, start.history es =
      before ++ .takes name :: (between ++ .takes name :: after) → .releases ∈ between) ∧
    (∀ i derived, p.controls i = none → (Returns (LoggerControl.make i derived) p ↔
      nullLogger.name ∉ registered es ∧ derived = .ok ())) ∧
    (∀ i, Returns (LoggerControl.disableLogging i) p ↔ nullLogger.name ∉ registered es) ∧
    (∀ i filePath console fileError,
      Returns (LoggerControl.enableLogging i filePath console fileError) p ↔
        fileError = none ∧ "global_logger" ∉ registered es) ∧
    (Returns spdlogCall p ↔ registered es ≠ []) ∧
    (.releases ∉ start.history es → ∀ i, p.controls i ≠ none →
      ¬Returns (LoggerControl.disableLogging i) p ∧
      ∀ j derived, p.controls j = none → ¬Returns (LoggerControl.make j derived) p) := by
  have null := mem_registered nullLogger.name run
  have disable : ∀ i, Returns (LoggerControl.disableLogging i) p ↔
      nullLogger.name ∉ registered es := by
    intro i
    rw [← null]
    exact returns_iff (LoggerControl.run_disableLogging.trans run_useNullLogger)
  have epochs : exec Epochs.step (.having [spdlogLogger.name]) (start.history es) =
      some p.epoch := exec_history run
  refine ⟨fun name before between after split => ?_, ?_, disable, ?_, ?_, ?_⟩
  · rw [split] at epochs
    exact Epochs.release_between epochs
  · intro i derived fresh
    rw [← null, Returns, LoggerControl.run_make fresh]
    by_cases present : nullLogger.name ∈ p.registry.loggers
    · simp [present]
    · rcases derived with (t | _ | _) | _ <;> simp [present]
  · intro i filePath console fileError
    have file : (globalLogger filePath console).name = "global_logger" := rfl
    rw [← mem_registered _ run, Returns, LoggerControl.run_enableLogging, run_useFileLogger]
    cases fileError with
    | some t => simp
    | none => by_cases present : "global_logger" ∈ p.registry.loggers <;> simp [present, file]
  · have last : p.registry.defaultLogger.map Logger.name = (registered es).getLast? :=
      congrArg Epochs.State.last (epoch_run run)
    rw [returns_iff run_spdlogCall, ← Option.map_eq_none_iff (f := Logger.name), last,
      List.getLast?_eq_none_iff]
  · intro kept i alive
    have present : nullLogger.name ∈ p.registry.loggers :=
      null_of_alive (p := start) (fun j there => absurd rfl there) run kept alive
    refine ⟨fun returns => (disable i).mp returns (null.mp present), ?_⟩
    rintro j derived fresh ⟨u, q, returned⟩
    rw [LoggerControl.run_make fresh, if_pos present] at returned
    cases returned

/-- A solver that logs to a file is destroyed, and another one is made. -/
def twoSolvers : List LoggingCall :=
  [.make 0 (.ok ()), .enableLogging 0 "./logs/solver.log" true none, .log, .destroy 0,
    .make 1 (.ok ())]

theorem loggers_registered_once_two_solvers :
    ∃ p, exec LoggedProcess.step LoggedProcess.start twoSolvers = some p ∧
      ¬Returns (LoggerControl.disableLogging 1) p ∧ Returns spdlogCall p := by
  refine ⟨_, rfl, ?_, ?_⟩
  · rw [(loggers_registered_once twoSolvers _ rfl).2.2.1]
    decide
  · rw [(loggers_registered_once twoSolvers _ rfl).2.2.2.2.1]
    decide

end Metasolver
