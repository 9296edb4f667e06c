import Metasolver.Discovery.Changes
import Metasolver.Lib.Exec

/-!
# Runs of the registry

A process with one registry: its calls, the instances that the callers hold, and library
files that somebody else rebuilds.  A call counts its file operations and its calls of the
provider from zero, so what it finds outside does not depend on earlier calls.
-/

namespace Metasolver

open Effects Exec

/-- A call of a public member function of `udp_registry`. -/
inductive RegistryCall (Params Obj : Type) where
  | initializeUdp (name : LibName) (libFileHash : Option String)
  | constructUdp (name : LibName) (params : Params)
  | cloneUdp (other : UdpBase Obj)
  | getLibAsFile (libName : LibName)
  | getLibFileHash (libName : LibName)
  | registerUdpProvider (providerFunc : Bool)
  | setLocalCacheDir (directory : String)
  | useInMemoryCache (value : Bool)

/-- What a call returns. -/
inductive RegistryAnswer (Obj : Type) where
  | done
  | instance (udp : UdpBase Obj)
  | file (libFile : Option Bytes)
  | hash (libFileHash : Option String)

namespace RegistryCall

variable {Params Obj : Type}

def perform (sha256 : Bytes → String) (env : Outside Params Obj) :
    RegistryCall Params Obj → RegistryM (RegistryAnswer Obj)
  | initializeUdp name libFileHash => do
      Registry.initializeUdp sha256 env name libFileHash
      return .done
  | constructUdp name params => return .instance (← Registry.constructUdp env name params)
  | cloneUdp other => return .instance (← Registry.cloneUdp env other)
  | getLibAsFile libName => return .file (← Registry.getLibAsFile env libName)
  | getLibFileHash libName => return .hash (← Registry.getLibFileHash sha256 env libName)
  | registerUdpProvider providerFunc => do
      Registry.registerUdpProvider providerFunc
      return .done
  | setLocalCacheDir directory => do
      Registry.setLocalCacheDir directory
      return .done
  | useInMemoryCache value => do
      Registry.setUseInMemoryCache value
      return .done

/-- The library that a call is about. -/
def name (env : Outside Params Obj) : RegistryCall Params Obj → Option LibName
  | initializeUdp name _ => some name
  | constructUdp name _ => some name
  | cloneUdp other => some (env.libFileName other.object)
  | getLibAsFile libName => some libName
  | getLibFileHash libName => some libName
  | registerUdpProvider _ => none
  | setLocalCacheDir _ => none
  | useInMemoryCache _ => none

/-- The changes of the setters. -/
inductive Setting (call : RegistryCall Params Obj) (s : Registry) : Registry → Prop where
  | provider (providerFunc : Bool) : Setting call s { s with udpProvider := providerFunc }
  | directory (directory : String) (called : call = .setLocalCacheDir directory) :
      Setting call s { s with localCache := directory }
  | cleared : Setting call s (s.withBuffer s.libFilesBuffer.clear)
  | toggled (value : Bool)
      (empty : value = false → ∀ p, s.libFilesBuffer.lookup p = none) :
      Setting call s { s with useInMemoryCache := value }

variable {sha256 : Bytes → String} {env : Outside Params Obj} {call : RegistryCall Params Obj}
  {n : LibName} {s : Registry}

/-- A call that is about a library makes changes for that library. -/
theorem acts_perform (named : call.name env = some n) :
    Acts (Registry.Change sha256 env n) (call.perform sha256 env) s fun _ _ => True := by
  have done {α : Type} {x : RegistryM α} {P : α → Registry → Prop} (f : α → RegistryAnswer Obj)
      (acts : Acts (Registry.Change sha256 env n) x s P) :
      Acts (Registry.Change sha256 env n) (do return f (← x)) s fun _ _ => True :=
    acts.bind fun _ _ _ => Acts.pure trivial
  have gain (t u : Registry) : Registry.Gain sha256 env n t u → Registry.Change sha256 env n t u :=
    Registry.Change.of_gain
  cases call with
  | initializeUdp name libFileHash =>
      cases named
      exact done _ (Registry.acts_initializeUdp.mono fun _ _ => Registry.Change.of_refresh)
  | constructUdp name params =>
      cases named
      exact done _ (Registry.acts_constructUdp.mono fun _ _ => Registry.Change.of_construct)
  | cloneUdp other =>
      cases named
      exact done _ (Registry.acts_cloneUdp.mono fun _ _ => Registry.Change.of_use)
  | getLibAsFile libName =>
      cases named
      exact done _ (Registry.acts_getLibAsFile.mono gain)
  | getLibFileHash libName =>
      cases named
      exact done _ (Registry.acts_getLibFileHash.mono gain)
  | registerUdpProvider => cases named
  | setLocalCacheDir => cases named
  | useInMemoryCache => cases named

/-- A call that is about no library is a setter. -/
theorem acts_setting (unnamed : call.name env = none) :
    Acts (Setting call) (call.perform sha256 env) s fun _ _ => True := by
  cases call with
  | initializeUdp => cases unnamed
  | constructUdp => cases unnamed
  | cloneUdp => cases unnamed
  | getLibAsFile => cases unnamed
  | getLibFileHash => cases unnamed
  | registerUdpProvider providerFunc =>
      exact ⟨.single (.provider providerFunc), fun _ _ _ => trivial⟩
  | setLocalCacheDir directory => exact ⟨.single (.directory directory rfl), fun _ _ _ => trivial⟩
  | useInMemoryCache value =>
      refine ⟨?_, fun _ _ _ => trivial⟩
      cases value with
      | true => exact .single (.toggled true nofun)
      | false =>
          refine .trans (.single .cleared) (.single (.toggled false fun _ p => ?_))
          exact Lru.lookup_clear

/-- What the changes of a call preserve, the call preserves, also when it throws. -/
theorem perform_invariant {I : Registry → Prop}
    (changes : ∀ n, call.name env = some n →
      ∀ t u, Registry.Change sha256 env n t u → I t → I u)
    (settings : ∀ t u, Setting call t u → I t → I u) (start : I s) :
    I (final ((call.perform sha256 env).run s)) := by
  cases named : call.name env with
  | none => exact (acts_setting named).invariant settings start
  | some n => exact (acts_perform named).invariant (changes n named) start

end RegistryCall

/-- The registry of a process and the instances that are held in it. -/
structure Process (Obj : Type) where
  registry : Registry
  held : List (UdpBase Obj) := []

inductive ProcessEvent (Params Obj : Type) where
  | calls (env : Outside Params Obj) (call : RegistryCall Params Obj)
  /-- A holder destroys its instance. -/
  | destroys (k : Nat)
  /-- A library file is replaced by a rebuilt one. -/
  | rebuilt (file : FileId) (content : Bytes)

namespace Process

variable {Params Obj : Type}

/-- What a part of a call preserves, the call with its answer preserves. -/
theorem final_bind_pure {α β : Type} {I : Registry → Prop} {x : RegistryM α} {s : Registry}
    {f : α → β} (kept : I (final (x.run s))) : I (final ((do return f (← x)).run s)) := by
  rw [EStateM.run_bind]
  cases run : x.run s with
  | ok a t =>
      rw [run] at kept
      exact kept
  | error e t =>
      rw [run] at kept
      exact kept

/-- The registry at the beginning of a call. -/
def entered (p : Process Obj) : Registry := p.registry.counted 0 []

/-- The process after a call has ended. -/
def after (p : Process Obj) : EStateM.Result Exn Registry (RegistryAnswer Obj) → Process Obj
  | .ok (.instance udp) t => ⟨t, udp :: p.held⟩
  | .ok _ t => ⟨t, p.held⟩
  | .error _ t => ⟨t, p.held⟩

def step (sha256 : Bytes → String) (p : Process Obj) :
    ProcessEvent Params Obj → Option (Process Obj)
  | .calls env call => some (p.after ((call.perform sha256 env).run p.entered))
  | .destroys k => if k < p.held.length then some { p with held := p.held.eraseIdx k } else none
  | .rebuilt file content =>
      some { p with registry :=
        { p.registry with files := Function.update p.registry.files file (some content) } }

/-- A process whose registry is empty. -/
def start (directory : String) (locate : String → FileId) (files : FileId → Option Bytes) :
    Process Obj :=
  { registry := { localCache := directory, locate := locate, files := files } }

@[simp] theorem after_registry (p : Process Obj)
    (r : EStateM.Result Exn Registry (RegistryAnswer Obj)) : (p.after r).registry = final r := by
  cases r with
  | ok answer t => cases answer <;> rfl
  | error e t => rfl

/-- What a step can do to the registry: a call, nothing, or a rebuilt file. -/
theorem registry_step {sha256 : Bytes → String} {I : Registry → Prop} {p q : Process Obj}
    {e : ProcessEvent Params Obj} (step : p.step sha256 e = some q) (before : I p.registry)
    (calls : ∀ env call, e = .calls env call →
      I (final ((call.perform sha256 env).run p.entered)))
    (rebuilt : ∀ file content, e = .rebuilt file content →
      I { p.registry with files := Function.update p.registry.files file (some content) }) :
    I q.registry := by
  cases e with
  | calls env call =>
      cases step
      rw [after_registry]
      exact calls env call rfl
  | destroys k =>
      simp only [Process.step] at step
      split at step
      · cases step
        exact before
      · cases step
  | rebuilt file content =>
      cases step
      exact rebuilt file content rfl

end Process

/-! ## A process of the examples -/

/-- SHA-256 on the files of the examples. -/
def sampleSha256 : Bytes → String
  | [] => "e3b0c44298fc1c149afbf4c8996fb92427ae41e4649b934ca495991b7852b855"
  | [0x61] => "ca978112ca1bbdcafac231b39a23dc4da786eff8147c4e72b9807785afee48bb"
  | _ => "3e23e8160039594a33894f6564e1b1348bbd7a0088d42c4acb73eeaed59c009d"

/-- A provider that always gives the same answer; everything else works. -/
def sampleOutside (answer : Option Bytes) : Outside Unit Unit where
  provider _ _ := .ok answer
  fileError _ := none
  dlopenFails := false
  dlcloseFails := false
  errorMsg := ""
  dlsym _ := true
  runAfterLoad := .ok ()
  allocator _ := .ok ()
  cloner := .ok
  libFileName _ := "lib"

/-- One empty file in the current directory. -/
def sampleFiles (file : FileId) : Option Bytes := if file = "./lib.so" then some [] else none

end Metasolver
