import Mathlib.Data.List.Induction
import Metasolver.Lib.Options

/-!
# The arguments of the example program

`parse_main_args` (`main.cpp:233-323`) reads the command line into `main_args`.  A command
line is accepted exactly if it consists of the words of a list of arguments, one of them a
mode, and all numbers can be read (`parseMainArgs_iff`).  Then a switch is on if it occurs
anywhere, and an option has its last value.
-/

namespace Metasolver

open Options

/-- What `parse_main_args` throws. -/
inductive ArgError where
  /-- `std::runtime_error`. -/
  | requiresValue (a : String)
  /-- `std::invalid_argument` of `std::stoul`. -/
  | invalidArgument
  /-- `std::out_of_range` of `std::stoul`. -/
  | outOfRange
  deriving DecidableEq, Repr

/-- The text of the exception. -/
def ArgError.what : ArgError → String
  | .requiresValue a => a ++ " requires a value"
  | .invalidArgument | .outOfRange => "stoul"

/-- `isspace` in the C locale. -/
def isSpace (c : Char) : Bool :=
  c = ' ' || c = '\t' || c = '\n' || c = '\x0b' || c = '\x0c' || c = '\r'

/-- The value of decimal digits. -/
def decimal (digits : List Char) : Nat :=
  digits.foldl (fun n c => 10 * n + (c.toNat - '0'.toNat)) 0

/-- `std::stoul`: blanks, a sign, and as many digits as there are; a negated value is taken
    modulo 2^64. -/
def stoul (str : String) : Except ArgError UInt64 :=
  let (negated, rest) := match str.toList.dropWhile isSpace with
    | '-' :: rest => (true, rest)
    | '+' :: rest => (false, rest)
    | rest => (false, rest)
  let digits := rest.takeWhile Char.isDigit
  if digits = [] then .error .invalidArgument
  else if UInt64.size ≤ decimal digits then .error .outOfRange
  else .ok (if negated then -UInt64.ofNat (decimal digits) else UInt64.ofNat (decimal digits))

/-- `main_args`. -/
structure MainArgs where
  isController : Bool := false
  address : String := ""
  defaultAddressWorker : String := "tcp://localhost:5000"
  defaultAddressController : String := "tcp://0.0.0.0:5000"
  workers : UInt64 := 2
  strategy : String := "BY_PERFORMANCE"
  workerMode : String := "ARCHIPELAGO_BASED"
  minPopSize : UInt64 := 80
  cacheDir : String := ""
  defaultCacheDirWorker : String := "worker_cache"
  defaultCacheDirController : String := "controller_cache"
  runBenchmark : Bool := false
  disableLogging : Bool := false
  noWorkerDirectory : Bool := false
  workerDir : String := ""
  runSOBenchmark : Bool := false
  runMOBenchmark : Bool := false
  deriving DecidableEq, Repr

/-- The options that stand alone. -/
inductive Switch where
  | help
  | h
  | controller
  | benchmarkSo
  | benchmarkMo
  | benchmark
  | disableLogging
  | worker
  | noWorkerIsolation
  deriving DecidableEq, Repr

/-- The options that take the next argument, with `nextArg`. -/
inductive ValueOption where
  | address
  | workers
  | strategy
  | mode
  | minPopSize
  | cacheDir
  | workerDir
  deriving DecidableEq, Repr

def optionName : Switch ⊕ ValueOption → String
  | .inl .help => "--help"
  | .inl .h => "-h"
  | .inl .controller => "--controller"
  | .inl .benchmarkSo => "--benchmark-so"
  | .inl .benchmarkMo => "--benchmark-mo"
  | .inl .benchmark => "--benchmark"
  | .inl .disableLogging => "--disable-logging"
  | .inl .worker => "--worker"
  | .inr .address => "--address"
  | .inr .workers => "--workers"
  | .inr .strategy => "--strategy"
  | .inr .mode => "--mode"
  | .inr .minPopSize => "--min-pop-size"
  | .inr .cacheDir => "--cache-dir"
  | .inr .workerDir => "--worker-dir"
  | .inl .noWorkerIsolation => "--no-worker-isolation"

/-- The comparisons of `a` (`main.cpp:248-315`). -/
def readOption : String → Option (Switch ⊕ ValueOption)
  | "--help" => some (.inl .help)
  | "-h" => some (.inl .h)
  | "--controller" => some (.inl .controller)
  | "--benchmark-so" => some (.inl .benchmarkSo)
  | "--benchmark-mo" => some (.inl .benchmarkMo)
  | "--benchmark" => some (.inl .benchmark)
  | "--disable-logging" => some (.inl .disableLogging)
  | "--worker" => some (.inl .worker)
  | "--address" => some (.inr .address)
  | "--workers" => some (.inr .workers)
  | "--strategy" => some (.inr .strategy)
  | "--mode" => some (.inr .mode)
  | "--min-pop-size" => some (.inr .minPopSize)
  | "--cache-dir" => some (.inr .cacheDir)
  | "--worker-dir" => some (.inr .workerDir)
  | "--no-worker-isolation" => some (.inl .noWorkerIsolation)
  | _ => none

theorem readOption_iff (a : String) (o : Switch ⊕ ValueOption) :
    readOption a = some o ↔ optionName o = a := by
  constructor
  · intro known
    unfold readOption at known
    split at known <;> cases known <;> rfl
  · rintro rfl
    rcases o with s | v
    · cases s <;> rfl
    · cases v <;> rfl

/-- `mainArgs` and `modeSet`. -/
structure Parsing where
  mainArgs : MainArgs := {}
  modeSet : Bool := false
  deriving DecidableEq, Repr

def Parsing.set (p : Parsing) : Switch → Parsing
  | .help | .h => p
  | .controller => ⟨{ p.mainArgs with isController := true }, true⟩
  | .benchmarkSo => { p with mainArgs := { p.mainArgs with runSOBenchmark := true } }
  | .benchmarkMo => { p with mainArgs := { p.mainArgs with runMOBenchmark := true } }
  | .benchmark => { p with mainArgs := { p.mainArgs with runBenchmark := true } }
  | .disableLogging => { p with mainArgs := { p.mainArgs with disableLogging := true } }
  | .worker => ⟨{ p.mainArgs with isController := false }, true⟩
  | .noWorkerIsolation => { p with mainArgs := { p.mainArgs with noWorkerDirectory := true } }

def MainArgs.assign (ma : MainArgs) (value : String) : ValueOption → Except ArgError MainArgs
  | .address => .ok { ma with address := value }
  | .workers => do return { ma with workers := ← stoul value }
  | .strategy => .ok { ma with strategy := value }
  | .mode => .ok { ma with workerMode := value }
  | .minPopSize => do return { ma with minPopSize := ← stoul value }
  | .cacheDir => .ok { ma with cacheDir := value }
  | .workerDir => .ok { ma with workerDir := value }

/-- The loop of `parse_main_args` over the arguments. -/
def mainOptions : Language Switch ValueOption Parsing ArgError where
  name := optionName
  read := readOption
  read_iff := readOption_iff
  set s p := p.set s
  assign v value p := do return { p with mainArgs := ← p.mainArgs.assign value v }
  missing v := .requiresValue (optionName (.inr v))

/-- `parse_main_args`.  An unknown argument ends the loop and unsets the mode. -/
def parseMainArgs (argv : List String) : Except ArgError (Option MainArgs) := do
  let (p, unknown) ← mainOptions.parse argv {}
  return if p.modeSet && unknown.isNone then some p.mainArgs else none

/-! ## What is accepted -/

abbrev MainArg := Arg Switch ValueOption

namespace MainArgs

variable {args : List MainArg} {arg : MainArg} {v w : ValueOption} {value : String} {s r : Switch}

/-- The last value of an option. -/
def lastValue (args : List MainArg) (v : ValueOption) : Option String :=
  (args.filterMap fun
    | .valued w value => if w = v then some value else none
    | .switch _ => none).getLast?

/-- Whether a switch makes a controller, or a worker. -/
def mode? : Switch → Option Bool
  | .controller => some true
  | .worker => some false
  | _ => none

/-- The last mode. -/
def lastMode (args : List MainArg) : Option Bool :=
  (args.filterMap fun
    | .switch s => mode? s
    | .valued _ _ => none).getLast?

def number (value : String) : Option UInt64 := (stoul value).toOption

/-- What a list of arguments says, in whatever order. -/
def ofArgs (args : List MainArg) : MainArgs where
  isController := (lastMode args).getD false
  address := (lastValue args .address).getD ""
  workers := ((lastValue args .workers).bind number).getD 2
  strategy := (lastValue args .strategy).getD "BY_PERFORMANCE"
  workerMode := (lastValue args .mode).getD "ARCHIPELAGO_BASED"
  minPopSize := ((lastValue args .minPopSize).bind number).getD 80
  cacheDir := (lastValue args .cacheDir).getD ""
  runBenchmark := decide (.switch .benchmark ∈ args)
  disableLogging := decide (.switch .disableLogging ∈ args)
  noWorkerDirectory := decide (.switch .noWorkerIsolation ∈ args)
  workerDir := (lastValue args .workerDir).getD ""
  runSOBenchmark := decide (.switch .benchmarkSo ∈ args)
  runMOBenchmark := decide (.switch .benchmarkMo ∈ args)

/-- The values that are numbers can be read. -/
def Readable (args : List MainArg) : Prop :=
  ∀ v value, .valued v value ∈ args → v = .workers ∨ v = .minPopSize → ∃ n, stoul value = .ok n

@[simp] theorem lastValue_nil : lastValue [] v = none := rfl

@[simp] theorem lastMode_nil : lastMode [] = none := rfl

@[simp] theorem lastValue_switch : lastValue (args ++ [.switch s]) v = lastValue args v := by
  simp [lastValue, List.filterMap_append]

@[simp] theorem lastValue_valued : lastValue (args ++ [.valued w value]) v =
    if w = v then some value else lastValue args v := by
  by_cases same : w = v
  · simp [lastValue, List.filterMap_append, same]
  · simp [lastValue, List.filterMap_append, same]

@[simp] theorem lastMode_switch : lastMode (args ++ [.switch s]) =
    (mode? s).or (lastMode args) := by
  cases mode : mode? s with
  | none => simp [lastMode, List.filterMap_append, mode]
  | some b => simp [lastMode, List.filterMap_append, mode]

@[simp] theorem lastMode_valued : lastMode (args ++ [.valued w value]) = lastMode args := by
  simp [lastMode, List.filterMap_append]

/-- One more switch. -/
theorem ofArgs_switch : Parsing.set ⟨ofArgs args, (lastMode args).isSome⟩ s =
    ⟨ofArgs (args ++ [.switch s]), (lastMode (args ++ [.switch s])).isSome⟩ := by
  cases s <;> simp [ofArgs, Parsing.set, mode?]

/-- One more value, which must be readable if it is a number. -/
theorem assign_ofArgs {ma : MainArgs} : (ofArgs args).assign value v = .ok ma ↔
    (v = .workers ∨ v = .minPopSize → ∃ n, stoul value = .ok n) ∧
      ma = ofArgs (args ++ [.valued v value]) := by
  cases v with
  | workers =>
      cases read : stoul value with
      | error e => simp [assign, read, bind, Except.bind]
      | ok n =>
          simp [assign, read, bind, Except.bind, pure, Except.pure, ofArgs, number,
            Except.toOption, eq_comm]
  | minPopSize =>
      cases read : stoul value with
      | error e => simp [assign, read, bind, Except.bind]
      | ok n =>
          simp [assign, read, bind, Except.bind, pure, Except.pure, ofArgs, number,
            Except.toOption, eq_comm]
  | address | strategy | mode | cacheDir | workerDir => simp [assign, ofArgs, eq_comm]

theorem readable_switch : Readable (args ++ [.switch s]) ↔ Readable args := by
  simp [Readable]

theorem readable_valued : Readable (args ++ [.valued v value]) ↔
    Readable args ∧ (v = .workers ∨ v = .minPopSize → ∃ n, stoul value = .ok n) := by
  constructor
  · intro readable
    refine ⟨fun w value' member => readable w value' (List.mem_append_left _ member), ?_⟩
    exact readable v value (List.mem_append_right _ List.mem_cons_self)
  · rintro ⟨readable, last⟩ w value' member
    rcases List.mem_append.mp member with before | same
    · exact readable w value' before
    · obtain ⟨rfl, rfl⟩ : w = v ∧ value' = value := by simpa using same
      exact last

/-- What the loop has made of a list of arguments. -/
theorem applyAll_iff {p : Parsing} : mainOptions.applyAll {} args = .ok p ↔
    Readable args ∧ p = ⟨ofArgs args, (lastMode args).isSome⟩ := by
  induction args using List.reverseRecOn generalizing p with
  | nil =>
      have nothing : Readable [] := nofun
      constructor
      · rintro ⟨⟩
        exact ⟨nothing, rfl⟩
      · rintro ⟨-, rfl⟩
        rfl
  | append_singleton args arg ih =>
      rw [Language.applyAll_snoc]
      change mainOptions.applyAll {} args >>= _ = _ ↔ _
      rw [Except.bind_eq_ok_iff]
      simp only [ih]
      cases arg with
      | switch s =>
          rw [readable_switch, ← ofArgs_switch]
          constructor
          · rintro ⟨_, ⟨readable, rfl⟩, applied⟩
            exact ⟨readable, (Except.ok.inj applied).symm⟩
          · rintro ⟨readable, rfl⟩
            exact ⟨_, ⟨readable, rfl⟩, rfl⟩
      | valued v value =>
          rw [readable_valued, lastMode_valued]
          constructor
          · rintro ⟨_, ⟨readable, rfl⟩, applied⟩
            obtain ⟨ma, assigned, made⟩ := Except.bind_eq_ok_iff.mp applied
            obtain ⟨number, rfl⟩ := assign_ofArgs.mp assigned
            exact ⟨⟨readable, number⟩, (Except.ok.inj made).symm⟩
          · rintro ⟨⟨readable, number⟩, rfl⟩
            refine ⟨_, ⟨readable, rfl⟩, Except.bind_eq_ok_iff.mpr ?_⟩
            exact ⟨_, assign_ofArgs.mpr ⟨number, rfl⟩, rfl⟩

end MainArgs

open MainArgs

/-- What the loop throws for the value of an option: nothing, unless it is a number. -/
theorem assign_eq_error_iff {v : ValueOption} {value : String} {p : Parsing} {e : ArgError} :
    mainOptions.assign v value p = .error e ↔
      (v = .workers ∨ v = .minPopSize) ∧ stoul value = .error e := by
  cases v <;> cases read : stoul value <;>
    simp [mainOptions, MainArgs.assign, read, bind, Except.bind, pure, Except.pure]

theorem parseMainArgs_eq_some_iff {argv : List String} {ma : MainArgs} :
    parseMainArgs argv = .ok (some ma) ↔
      ∃ args : List MainArg, argv = args.flatMap mainOptions.render ∧ Readable args ∧
        (lastMode args).isSome ∧ ma = ofArgs args := by
  rw [parseMainArgs, Except.bind_eq_ok_iff]
  constructor
  · rintro ⟨⟨p, unknown⟩, parsed, result⟩
    have given := Except.pure_eq_ok_iff.mp result
    split_ifs at given with both
    obtain ⟨modeSet, whole⟩ := Bool.and_eq_true_iff.mp both
    obtain rfl := Option.isNone_iff_eq_none.mp whole
    obtain ⟨args, words, applied⟩ := Language.parse_eq_ok_iff.mp parsed
    obtain ⟨readable, rfl⟩ := applyAll_iff.mp applied
    exact ⟨args, words, readable, modeSet, (Option.some.inj given).symm⟩
  · rintro ⟨args, words, readable, modeSet, rfl⟩
    refine ⟨_, Language.parse_eq_ok_iff.mpr ⟨args, words, applyAll_iff.mpr ⟨readable, rfl⟩⟩, ?_⟩
    simp [modeSet, pure, Except.pure]

theorem parseMainArgs_eq_error_iff {argv : List String} {e : ArgError} :
    parseMainArgs argv = .error e ↔ ∃ args : List MainArg, Readable args ∧
      ((∃ v, argv = args.flatMap mainOptions.render ++ [optionName (.inr v)] ∧
        e = .requiresValue (optionName (.inr v))) ∨
      ∃ v value rest, argv = args.flatMap mainOptions.render ++
          optionName (.inr v) :: value :: rest ∧
        (v = .workers ∨ v = .minPopSize) ∧ stoul value = .error e) := by
  have throws : parseMainArgs argv = .error e ↔ mainOptions.parse argv {} = .error e := by
    rw [parseMainArgs]
    cases mainOptions.parse argv {} <;> simp [bind, Except.bind, pure, Except.pure]
  rw [throws, Language.parse_eq_error_iff]
  simp only [assign_eq_error_iff]
  constructor
  · rintro ⟨args, p, applied, cause⟩
    exact ⟨args, (applyAll_iff.mp applied).1, cause⟩
  · rintro ⟨args, readable, cause⟩
    exact ⟨args, _, applyAll_iff.mpr ⟨readable, rfl⟩, cause⟩

/-- A command line is accepted exactly if it consists of the words of some arguments with a
    mode among them, and the numbers can be read; there is one such list of arguments, and it
    alone determines the result.  Parsing throws exactly if, behind the words of readable
    arguments, there is an option without its value or with a number that cannot be read. -/
theorem parseMainArgs_iff (argv : List String) :
    (∀ ma, parseMainArgs argv = .ok (some ma) ↔
      ∃! args : List MainArg, argv = args.flatMap mainOptions.render ∧ Readable args ∧
        (lastMode args).isSome ∧ ma = ofArgs args) ∧
    ∀ e, parseMainArgs argv = .error e ↔ ∃ args : List MainArg, Readable args ∧
      ((∃ v, argv = args.flatMap mainOptions.render ++ [optionName (.inr v)] ∧
        e = .requiresValue (optionName (.inr v))) ∨
      ∃ v value rest, argv = args.flatMap mainOptions.render ++
          optionName (.inr v) :: value :: rest ∧
        (v = .workers ∨ v = .minPopSize) ∧ stoul value = .error e) := by
  refine ⟨fun ma => ?_, fun e => parseMainArgs_eq_error_iff⟩
  rw [parseMainArgs_eq_some_iff]
  constructor
  · rintro ⟨args, words, meant⟩
    refine ⟨args, ⟨words, meant⟩, ?_⟩
    rintro args' ⟨words', -⟩
    exact Language.render_injective (words'.symm.trans words)
  · rintro ⟨args, meant, -⟩
    exact ⟨args, meant⟩

end Metasolver
