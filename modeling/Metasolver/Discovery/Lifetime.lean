import Metasolver.Discovery.Process

/-!
# Registered and open libraries

A library is registered before it is opened, and it stays registered when it is closed
because it has no allocator or deleter.  As long as neither happens, every registered
library is open.
-/

namespace Metasolver

open Effects Exec

namespace Registry

variable {Params Obj : Type} {sha256 : Bytes → String} {env : Outside Params Obj}
  {n m : LibName} {s t u : Registry}

/-- The library has the functions that an instance needs. -/
def HasAllocator (env : Outside Params Obj) : Prop :=
  env.dlsym "allocator" = true ∧ env.dlsym "deleter" = true

/-- The loaders look for the functions by their standard names. -/
def StandardNames (s : Registry) : Prop :=
  ∀ n loader, s.libLoaders.lookup n = some loader →
    loader.allocSymbol = "allocator" ∧ loader.deleteSymbol = "deleter" ∧
      loader.cloneSymbol = "cloner"

theorem StandardNames.withLoader (names : StandardNames s) {loader : LibLoader}
    (alloc : loader.allocSymbol = "allocator") (delete : loader.deleteSymbol = "deleter")
    (clone : loader.cloneSymbol = "cloner") : StandardNames (s.withLoader n loader) := by
  intro m loader' registered
  rw [lookup_withLoader] at registered
  split at registered
  case isTrue =>
    cases registered
    exact ⟨alloc, delete, clone⟩
  case isFalse => exact names m loader' registered

theorem StandardNames.change (names : StandardNames s) (change : Change sha256 env n s t) :
    StandardNames t := by
  rcases change with (gain | loss) | use | close
  · cases gain with
    | counted | asked | buffered | hashed | saved => exact names
    | loaded | notLoaded => exact names.withLoader rfl rfl rfl
  · cases loss with
    | unloaded | unregistered =>
        intro m loader registered
        exact names m loader (lookup_of_erase registered).2
    | forgotten | deleted => exact names
  · cases use with
    | ranAfterLoad loader registered =>
        obtain ⟨alloc, delete, clone⟩ := names n loader registered
        exact names.withLoader alloc delete clone
  · cases close with
    | closed loader handle registered =>
        obtain ⟨alloc, delete, clone⟩ := names n loader registered
        exact names.withLoader alloc delete clone

/-- A library with allocator and deleter is not closed by `get_instance`. -/
theorem StandardNames.not_close (names : StandardNames s)
    (unclosed : HasAllocator env ∨ env.dlcloseFails = true) : ¬Close env n s t := by
  intro close
  cases close with
  | closed loader handle registered opened missing works =>
      obtain ⟨alloc, delete, -⟩ := names n loader registered
      rw [alloc, delete] at missing
      rcases unclosed with ⟨found, found'⟩ | fails
      · rcases missing with missing | missing
        · cases found.symm.trans missing
        · cases found'.symm.trans missing
      · cases works.symm.trans fails

/-- The registered libraries are open. -/
def AllOpen (s : Registry) : Prop :=
  ∀ n loader, s.libLoaders.lookup n = some loader → loader.handle.isSome

theorem AllOpen.withLoader (allOpen : AllOpen s) {loader : LibLoader}
    (opened : loader.handle.isSome) : AllOpen (s.withLoader n loader) := by
  intro m loader' registered
  rw [lookup_withLoader] at registered
  split at registered
  case isTrue =>
    cases registered
    exact opened
  case isFalse => exact allOpen m loader' registered

theorem AllOpen.gain (works : env.dlopenFails = false) (allOpen : AllOpen s)
    (gain : Gain sha256 env n s t) : AllOpen t := by
  cases gain with
  | counted | asked | buffered | hashed | saved => exact allOpen
  | loaded b new file => exact allOpen.withLoader rfl
  | notLoaded b new file fails => cases works.symm.trans fails

theorem AllOpen.refresh (works : env.dlopenFails = false) (allOpen : AllOpen s)
    (refresh : Refresh sha256 env n s t) : AllOpen t := by
  rcases refresh with gain | loss
  · exact allOpen.gain works gain
  · cases loss with
    | unloaded | unregistered =>
        intro m loader registered
        exact allOpen m loader (lookup_of_erase registered).2
    | forgotten | deleted => exact allOpen

theorem AllOpen.use (allOpen : AllOpen s) (use : Use n s t) : AllOpen t := by
  cases use with
  | ranAfterLoad loader registered => exact allOpen.withLoader (allOpen n loader registered)

theorem AllOpen.construct (works : env.dlopenFails = false)
    (unclosed : HasAllocator env ∨ env.dlcloseFails = true) (names : StandardNames s)
    (allOpen : AllOpen s) (construct : Construct sha256 env n s t) : AllOpen t := by
  rcases construct with gain | use | close
  · exact allOpen.gain works gain
  · exact allOpen.use use
  · exact absurd close (names.not_close unclosed)

end Registry

open Registry

/-- No library fails to open, and none is closed because it lacks a function. -/
def ProcessEvent.KeepsOpen {Params Obj : Type} : ProcessEvent Params Obj → Prop
  | .calls env (.initializeUdp _ _) => env.dlopenFails = false
  | .calls env (.constructUdp _ _) =>
      env.dlopenFails = false ∧ (HasAllocator env ∨ env.dlcloseFails = true)
  | _ => True

namespace Process

variable {Params Obj : Type} {sha256 : Bytes → String} {env : Outside Params Obj}
  {n : LibName} {directory : String} {locate : String → FileId}
  {files : FileId → Option Bytes}
  {es : List (ProcessEvent Params Obj)} {p q : Process Obj}

theorem allOpen_call {call : RegistryCall Params Obj} {s : Registry} (allOpen : AllOpen s)
    (names : StandardNames s) (keeps : (ProcessEvent.calls env call).KeepsOpen) :
    AllOpen (final ((call.perform sha256 env).run s)) := by
  cases call with
  | initializeUdp name libFileHash =>
      exact final_bind_pure (acts_initializeUdp.invariant
        (fun _ _ refresh kept => AllOpen.refresh keeps kept refresh) allOpen)
  | constructUdp name params =>
      obtain ⟨works, unclosed⟩ := keeps
      have acts : Acts (Construct sha256 env name) (constructUdp env name params) s _ :=
        acts_constructUdp
      refine final_bind_pure (I := AllOpen) (acts.invariant
        (I := fun t => StandardNames t ∧ AllOpen t) ?_ ⟨names, allOpen⟩).2
      intro t u construct ⟨names, kept⟩
      exact ⟨names.change (Change.of_construct construct),
        kept.construct works unclosed names construct⟩
  | cloneUdp other =>
      exact final_bind_pure (acts_cloneUdp.invariant (fun _ _ use kept => kept.use use) allOpen)
  | getLibAsFile libName =>
      -- no library is opened here, so the outcome of an open does not matter
      have acts : Acts (Gain sha256 { env with dlopenFails := false } libName)
          (getLibAsFile env libName) s _ := acts_getLibAsFile
      exact final_bind_pure
        (acts.invariant (fun _ _ gain kept => AllOpen.gain rfl kept gain) allOpen)
  | getLibFileHash libName =>
      have acts : Acts (Gain sha256 { env with dlopenFails := false } libName)
          (getLibFileHash sha256 env libName) s _ := acts_getLibFileHash
      exact final_bind_pure
        (acts.invariant (fun _ _ gain kept => AllOpen.gain rfl kept gain) allOpen)
  | registerUdpProvider | setLocalCacheDir | useInMemoryCache =>
      refine (RegistryCall.acts_setting rfl).invariant ?_ allOpen
      intro t u setting kept
      cases setting <;> exact kept

theorem names_step {e : ProcessEvent Params Obj} (names : StandardNames p.registry)
    (step : Process.step sha256 p e = some q) : StandardNames q.registry := by
  refine registry_step step names ?_ fun _ _ _ => names
  intro env call _
  refine RegistryCall.perform_invariant (fun _ _ _ _ change kept => kept.change change) ?_ names
  intro t u setting kept
  cases setting <;> exact kept

theorem allOpen_step {e : ProcessEvent Params Obj} (allOpen : AllOpen p.registry)
    (names : StandardNames p.registry) (keeps : e.KeepsOpen)
    (step : Process.step sha256 p e = some q) : AllOpen q.registry := by
  refine registry_step step allOpen ?_ fun _ _ _ => allOpen
  intro env call event
  subst event
  exact allOpen_call allOpen names keeps

/-- In a run without a failed open and without a library that lacks a function, every
    registered library is open. -/
theorem registered_open (sha256 : Bytes → String) (directory : String)
    (locate : String → FileId) (files : FileId → Option Bytes)
    (es : List (ProcessEvent Params Obj)) (p : Process Obj)
    (keeps : ∀ e ∈ es, e.KeepsOpen)
    (run : exec (step sha256) (start directory locate files) es = some p) (name : LibName)
    (loader : LibLoader) (registered : p.registry.libLoaders.lookup name = some loader) :
    loader.handle.isSome := by
  have guarded : Along (step sha256) (fun _ e => e.KeepsOpen)
      (start directory locate files : Process Obj) es :=
    along_mono (fun _ e member => keeps e member) (along_mem es)
  have kept : AllOpen p.registry ∧ StandardNames p.registry := by
    refine exec_invariant (I := fun p => AllOpen p.registry ∧ StandardNames p.registry)
      ?_ ⟨fun _ _ none => ?_, fun _ _ none => ?_⟩ guarded run
    · intro p e q ⟨allOpen, names⟩ keeps step
      exact ⟨allOpen_step allOpen names keeps step, names_step names step⟩
    · cases none
    · cases none
  exact kept.1 name loader registered

/-- The library of the file in the current directory is loaded. -/
theorem registered_open_sample :
    ∃ p loader, step sampleSha256 (start "." id sampleFiles)
        (.calls (sampleOutside none) (.constructUdp "lib" ())) = some p ∧
      p.registry.libLoaders.lookup "lib" = some loader ∧ loader.handle.isSome :=
  ⟨_, _, rfl, rfl, registered_open sampleSha256 "." id sampleFiles
    [.calls (sampleOutside none) (.constructUdp "lib" ())] _
    (by simp [ProcessEvent.KeepsOpen, HasAllocator, sampleOutside]) rfl "lib" _ rfl⟩

/-- A library that cannot be opened stays registered. -/
theorem registered_notOpen :
    ¬∀ (es : List (ProcessEvent Unit Unit)) (p : Process Unit),
      exec (step sampleSha256) (start "." id sampleFiles) es = some p →
      ∀ name loader, p.registry.libLoaders.lookup name = some loader → loader.handle.isSome := by
  intro claimed
  have opened := claimed
    [.calls { sampleOutside none with dlopenFails := true } (.initializeUdp "lib" none)] _ rfl
    "lib" _ rfl
  cases opened

end Process

end Metasolver
