import Metasolver.Discovery.Lifetime
import Metasolver.Discovery.Refresh

/-!
# Instances and the opens they were made from

Each open of a library has a number, and an instance remembers the number of the open whose
functions made it.  An open is closed by the version refresh and by a `construct_udp` that
misses a function.  As long as this happens to no library in use, and no instance is made
through a library that is not open, the open of every instance that is held stays open.
-/

namespace Metasolver

open Effects Exec

namespace Registry

variable {Params Obj : Type} {sha256 : Bytes → String} {env : Outside Params Obj}
  {n m : LibName} {s t u : Registry}

/-- The number of the open that the loader of `n` holds. -/
def openNumber (s : Registry) (n : LibName) : Option Nat :=
  (s.libLoaders.lookup n).bind fun loader => loader.handle.map LibHandle.number

theorem openNumber_of_lookup {loader : LibLoader}
    (registered : s.libLoaders.lookup n = some loader) :
    s.openNumber n = loader.handle.map LibHandle.number := by
  rw [openNumber, registered]
  rfl

theorem openNumber_of_notMem (absent : n ∉ s.libLoaders) : s.openNumber n = none := by
  rw [openNumber, Finmap.lookup_eq_none.mpr absent]
  rfl

theorem openNumber_withLoader {loader : LibLoader} :
    (s.withLoader n loader).openNumber m =
      if m = n then loader.handle.map LibHandle.number else s.openNumber m := by
  rw [openNumber, lookup_withLoader]
  split <;> rfl

/-- What a change does to the open libraries: nothing, or it opens the library of `n` under
    a new number, or it closes it. -/
inductive Handled (env : Outside Params Obj) (n : LibName) (s t : Registry) : Prop where
  | kept (numbers : t.openNumber = s.openNumber) (opened : t.opened = s.opened)
      (closed : t.closed = s.closed)
  | opens (others : ∀ m, m ≠ n → t.openNumber m = s.openNumber m)
      (number : t.openNumber n = some s.opened) (opened : t.opened = s.opened + 1)
      (closed : t.closed = s.closed)
  | closes (k : Nat) (others : ∀ m, m ≠ n → t.openNumber m = s.openNumber m)
      (before : s.openNumber n = some k) (number : t.openNumber n = none)
      (opened : t.opened = s.opened) (closed : t.closed = insert k s.closed)
      (works : env.dlcloseFails = false)

theorem openNumber_erase : ({ s with libLoaders := s.libLoaders.erase n } : Registry).openNumber m =
    if m = n then none else s.openNumber m := by
  split
  case isTrue same =>
    subst same
    rw [openNumber, Finmap.lookup_erase]
    rfl
  case isFalse other =>
    rw [openNumber, Finmap.lookup_erase_ne other]
    rfl

/-- An update of the loader that keeps its handle. -/
theorem handled_of_sameHandle {loader : LibLoader}
    (same : loader.handle.map LibHandle.number = s.openNumber n) :
    Handled env n s (s.withLoader n loader) := by
  refine .kept (funext fun m => ?_) rfl rfl
  rw [openNumber_withLoader, same]
  split
  case isTrue equal => rw [equal]
  case isFalse => rfl

theorem Gain.handled (gain : Gain sha256 env n s t) : Handled env n s t := by
  cases gain with
  | counted | asked | buffered | hashed | saved => exact .kept rfl rfl rfl
  | loaded b new file =>
      refine .opens ?_ ?_ rfl rfl
      · intro m other
        exact openNumber_withLoader.trans (if_neg other)
      · exact openNumber_withLoader.trans (if_pos rfl)
  | notLoaded b new file fails => exact handled_of_sameHandle (openNumber_of_notMem new).symm

theorem openNumber_withOpened {b : Bytes} : (s.withOpened n b).openNumber n = some s.opened :=
  openNumber_withLoader.trans (if_pos rfl)

theorem Use.handled (use : Use n s t) : Handled env n s t := by
  cases use with
  | ranAfterLoad loader registered =>
      exact handled_of_sameHandle (openNumber_of_lookup registered).symm

theorem Loss.handled (loss : Loss env n s t) : Handled env n s t := by
  cases loss with
  | forgotten | deleted => exact .kept rfl rfl rfl
  | unregistered loader registered notOpened =>
      refine .kept (funext fun m => ?_) rfl rfl
      rw [openNumber_erase]
      split
      case isTrue equal => rw [equal, openNumber_of_lookup registered, notOpened, Option.map_none]
      case isFalse => rfl
  | unloaded loader handle registered opened works =>
      refine .closes handle.number ?_ ?_ ?_ rfl rfl works
      · intro m other
        exact openNumber_erase.trans (if_neg other)
      · rw [openNumber_of_lookup registered, opened, Option.map_some]
      · exact openNumber_erase.trans (if_pos rfl)

theorem Close.handled (close : Close env n s t) : Handled env n s t := by
  cases close with
  | closed loader handle registered opened missing works =>
      refine .closes handle.number ?_ ?_ ?_ rfl rfl works
      · intro m other
        exact openNumber_withLoader.trans (if_neg other)
      · rw [openNumber_of_lookup registered, opened, Option.map_some]
      · exact openNumber_withLoader.trans (if_pos rfl)

theorem Change.handled (change : Change sha256 env n s t) : Handled env n s t := by
  rcases change with (gain | loss) | use | close
  · exact gain.handled
  · exact loss.handled
  · exact use.handled
  · exact close.handled

/-- Different libraries hold different opens, which are numbered below the next number and
    have not been closed. -/
structure Numbered (s : Registry) : Prop where
  fresh : ∀ k ∈ s.closed, k < s.opened
  opened : ∀ n k, s.openNumber n = some k → k < s.opened ∧ k ∉ s.closed
  distinct : ∀ m n k, s.openNumber m = some k → s.openNumber n = some k → m = n

theorem Numbered.congr (numbered : Numbered s) (numbers : t.openNumber = s.openNumber)
    (opened : t.opened = s.opened) (closed : t.closed = s.closed) : Numbered t where
  fresh := by
    rw [opened, closed]
    exact numbered.fresh
  opened := by
    rw [numbers, opened, closed]
    exact numbered.opened
  distinct := by
    rw [numbers]
    exact numbered.distinct

theorem Numbered.handled (numbered : Numbered s) (handled : Handled env n s t) : Numbered t := by
  cases handled with
  | kept numbers opened closed => exact numbered.congr numbers opened closed
  | opens others number opened closed =>
      have old (m : LibName) (k : Nat) (holds : t.openNumber m = some k) :
          (m = n ∧ k = s.opened) ∨ (m ≠ n ∧ s.openNumber m = some k) := by
        by_cases same : m = n
        · subst same
          exact Or.inl ⟨rfl, Option.some.inj (holds.symm.trans number)⟩
        · exact Or.inr ⟨same, (others m same).symm.trans holds⟩
      refine ⟨?_, ?_, ?_⟩
      · intro k member
        rw [closed] at member
        have := numbered.fresh k member
        omega
      · intro m k holds
        rw [opened, closed]
        rcases old m k holds with ⟨-, rfl⟩ | ⟨-, holds⟩
        · refine ⟨by omega, fun member => ?_⟩
          have := numbered.fresh _ member
          omega
        · have := numbered.opened m k holds
          exact ⟨by omega, this.2⟩
      · intro m m' k holds holds'
        rcases old m k holds with ⟨rfl, rfl⟩ | ⟨-, holds⟩
        · rcases old m' _ holds' with ⟨rfl, -⟩ | ⟨-, holds'⟩
          · rfl
          · have := numbered.opened m' _ holds'
            omega
        · rcases old m' k holds' with ⟨rfl, rfl⟩ | ⟨-, holds'⟩
          · have := numbered.opened m _ holds
            omega
          · exact numbered.distinct m m' k holds holds'
  | closes k others before number opened closed =>
      have old (m : LibName) (k' : Nat) (holds : t.openNumber m = some k') :
          m ≠ n ∧ s.openNumber m = some k' := by
        by_cases same : m = n
        · subst same
          cases number.symm.trans holds
        · exact ⟨same, (others m same).symm.trans holds⟩
      refine ⟨?_, ?_, ?_⟩
      · intro k' member
        rw [closed] at member
        rw [opened]
        rcases Finset.mem_insert.mp member with rfl | member
        · exact (numbered.opened n _ before).1
        · exact numbered.fresh k' member
      · intro m k' holds
        obtain ⟨other, holds⟩ := old m k' holds
        rw [opened, closed]
        refine ⟨(numbered.opened m k' holds).1, fun member => ?_⟩
        rcases Finset.mem_insert.mp member with rfl | member
        · exact other (numbered.distinct m n _ holds before)
        · exact (numbered.opened m k' holds).2 member
      · intro m m' k' holds holds'
        exact numbered.distinct m m' k' (old m k' holds).2 (old m' k' holds').2

/-- What many changes for `n` can do to the opens: those that were there are closed only if
    `n` held them. -/
structure Aged (n : LibName) (s t : Registry) : Prop where
  opened : s.opened ≤ t.opened
  closed : ∀ k ∈ t.closed, k ∈ s.closed ∨ s.opened ≤ k ∨ s.openNumber n = some k
  number : ∀ k, t.openNumber n = some k → s.opened ≤ k ∨ s.openNumber n = some k

theorem Aged.refl : Aged n s s :=
  ⟨Nat.le_refl _, fun _ member => Or.inl member, fun _ holds => Or.inr holds⟩

theorem Aged.handled (aged : Aged n s t) (handled : Handled env n t u) : Aged n s u := by
  have := aged.opened
  cases handled with
  | kept numbers opened closed =>
      exact ⟨opened ▸ aged.opened, closed ▸ aged.closed, numbers ▸ aged.number⟩
  | opens others number opened closed =>
      refine ⟨by omega, closed ▸ aged.closed, ?_⟩
      intro k holds
      cases number.symm.trans holds
      exact Or.inl aged.opened
  | closes k others before number opened closed =>
      refine ⟨by omega, ?_, ?_⟩
      · intro k' member
        rw [closed] at member
        rcases Finset.mem_insert.mp member with rfl | member
        · exact Or.inr (aged.number _ before)
        · exact aged.closed k' member
      · intro k' holds
        cases number.symm.trans holds

/-- Nothing is closed. -/
def Unclosed (s t : Registry) : Prop := s.opened ≤ t.opened ∧ t.closed = s.closed

theorem Unclosed.refl : Unclosed s s := ⟨Nat.le_refl _, rfl⟩

theorem Unclosed.trans (first : Unclosed s t) (second : Unclosed t u) : Unclosed s u :=
  ⟨first.1.trans second.1, second.2.trans first.2⟩

theorem Gain.unclosed (gain : Gain sha256 env n s t) : Unclosed s t := by
  cases gain with
  | loaded => exact ⟨Nat.le_succ _, rfl⟩
  | _ => exact Unclosed.refl

theorem Use.unclosed (use : Use n s t) : Unclosed s t := by
  cases use
  exact Unclosed.refl

theorem Handled.unclosed (fails : env.dlcloseFails = true) (handled : Handled env n s t) :
    Unclosed s t := by
  cases handled with
  | kept numbers opened closed => exact ⟨opened ▸ Nat.le_refl _, closed⟩
  | opens others number opened closed => exact ⟨by omega, closed⟩
  | closes _ _ _ _ _ _ works => cases works.symm.trans fails

/-- The instance was made from an open that has not been closed. -/
def Alive (s : Registry) (udp : UdpBase Obj) : Prop :=
  ∃ k, udp.library = some k ∧ k < s.opened ∧ k ∉ s.closed

theorem Alive.unclosed {udp : UdpBase Obj} (alive : Alive s udp) (unclosed : Unclosed s t) :
    Alive t udp := by
  obtain ⟨k, library, below, notClosed⟩ := alive
  exact ⟨k, library, below.trans_le unclosed.1, unclosed.2 ▸ notClosed⟩

theorem Alive.aged {udp : UdpBase Obj} (alive : Alive s udp) (aged : Aged n s t)
    (other : s.openNumber n ≠ udp.library) : Alive t udp := by
  obtain ⟨k, library, below, notClosed⟩ := alive
  refine ⟨k, library, below.trans_le aged.opened, fun member => ?_⟩
  rcases aged.closed k member with old | new | held
  · exact notClosed old
  · omega
  · exact other (held.trans library.symm)

/-- An instance that has just been made belongs to the open of its loader. -/
theorem alive_of_instantiated {symbol : LibLoader → String} {made : UdpBase Obj}
    (numbered : Numbered t) (instantiated : Instantiated env symbol n u made t)
    (opened : u.openNumber n ≠ none) : Alive t made := by
  obtain ⟨loader, registered, library, -, -, after⟩ := instantiated
  obtain ⟨loader', registered', handle, -⟩ := ensureAfterLoad_keeps registered after
  have number : t.openNumber n = made.library := by
    rw [openNumber_of_lookup registered', handle, library]
  rw [openNumber_of_lookup registered, ← library] at opened
  obtain ⟨k, some_number⟩ := Option.ne_none_iff_exists'.mp opened
  exact ⟨k, some_number, numbered.opened n k (number.trans some_number)⟩

end Registry

namespace Process

open Registry

variable {Params Obj : Type} {sha256 : Bytes → String} {env : Outside Params Obj}
  {n : LibName} {directory : String} {locate : String → FileId}
  {files : FileId → Option Bytes}
  {es : List (ProcessEvent Params Obj)} {p q : Process Obj}

/-- An instance is held that was made from the open library of `n`. -/
def InUse (p : Process Obj) (n : LibName) : Prop :=
  ∃ udp ∈ p.held, ∃ k, udp.library = some k ∧ p.registry.openNumber n = some k

/-- The library has the functions that a copy of an instance needs. -/
def HasCloner (env : Outside Params Obj) : Prop :=
  env.dlsym "cloner" = true ∧ env.dlsym "deleter" = true

/-- The step closes no library in use, and it makes no instance through a library that is
    registered and not open. -/
def SparesInstances (sha256 : Bytes → String) (p : Process Obj) :
    ProcessEvent Params Obj → Prop
  | .calls env (.initializeUdp name libFileHash) =>
      ∀ h, libFileHash = some h → Outdated sha256 env p.registry name h → InUse p name →
        env.dlcloseFails = true
  | .calls env (.constructUdp name _) =>
      (InUse p name → HasAllocator env ∨ env.dlcloseFails = true) ∧
        (name ∈ p.registry.libLoaders → p.registry.openNumber name = none → ¬HasAllocator env)
  | .calls env (.cloneUdp other) =>
      env.libFileName other.object ∈ p.registry.libLoaders →
        p.registry.openNumber (env.libFileName other.object) = none → ¬HasCloner env
  | _ => True

theorem unclosed_of_acts {α : Type} {R : Registry → Registry → Prop} {x : RegistryM α}
    {P : α → Registry → Prop} {s : Registry} (unclosed : ∀ t u, R t u → Unclosed t u)
    (acts : Acts R x s P) : Unclosed s (final (x.run s)) :=
  acts.invariant (I := fun t => Unclosed s t)
    (fun t u change before => before.trans (unclosed t u change)) Unclosed.refl

/-- A call on a library in use closes nothing. -/
theorem call_unclosed {call : RegistryCall Params Obj} (names : StandardNames p.registry)
    (spares : SparesInstances sha256 p (.calls env call)) (named : call.name env = some n)
    (inUse : InUse p n) : Unclosed p.entered (final ((call.perform sha256 env).run p.entered)) := by
  have gain (t u : Registry) : Gain sha256 env n t u → Unclosed t u := Gain.unclosed
  cases call with
  | initializeUdp name libFileHash =>
      cases named
      apply final_bind_pure
      cases libFileHash with
      | none =>
          exact unclosed_of_acts gain (acts_provideLib "initialize")
      | some h =>
          by_cases outdated : Outdated sha256 env p.registry n h
          · have fails := spares h rfl outdated inUse
            refine unclosed_of_acts ?_ acts_initializeUdp
            intro t u refresh
            exact (Change.of_refresh refresh).handled.unclosed fails
          · exact unclosed_of_acts gain (acts_initializeUdp_of_same (hash_of_upToDate outdated))
  | constructUdp name params =>
      cases named
      apply final_bind_pure
      have acts : Acts (Construct sha256 env n) (constructUdp env n params) p.entered _ :=
        acts_constructUdp
      refine (acts.invariant (I := fun t => StandardNames t ∧ Unclosed p.entered t) ?_
        ⟨names, Unclosed.refl⟩).2
      intro t u construct ⟨names, before⟩
      refine ⟨names.change (Change.of_construct construct), before.trans ?_⟩
      rcases construct with gain | use | close
      · exact gain.unclosed
      · exact use.unclosed
      · exact absurd close (names.not_close (spares.1 inUse))
  | cloneUdp other =>
      exact final_bind_pure (unclosed_of_acts (fun _ _ => Use.unclosed) acts_cloneUdp)
  | getLibAsFile libName =>
      cases named
      exact final_bind_pure (unclosed_of_acts gain acts_getLibAsFile)
  | getLibFileHash libName =>
      cases named
      exact final_bind_pure (unclosed_of_acts gain acts_getLibFileHash)
  | registerUdpProvider | setLocalCacheDir | useInMemoryCache => cases named

/-- The instances that were alive are alive after a call. -/
theorem alive_call {call : RegistryCall Params Obj} {udp : UdpBase Obj}
    (names : StandardNames p.registry) (spares : SparesInstances sha256 p (.calls env call))
    (held : udp ∈ p.held) (alive : Alive p.registry udp) :
    Alive (final ((call.perform sha256 env).run p.entered)) udp := by
  have entered : Alive p.entered udp := alive
  cases named : call.name env with
  | none =>
      refine entered.unclosed (unclosed_of_acts ?_ (RegistryCall.acts_setting named))
      intro t u setting
      cases setting <;> exact Unclosed.refl
  | some n =>
      by_cases inUse : InUse p n
      · exact entered.unclosed (call_unclosed names spares named inUse)
      · have aged : Aged n p.entered (final ((call.perform sha256 env).run p.entered)) :=
          (RegistryCall.acts_perform named).invariant (I := Aged n p.entered)
            (fun _ _ change before => before.handled change.handled) Aged.refl
        refine entered.aged aged ?_
        intro holds
        obtain ⟨k, library, -⟩ := alive
        exact inUse ⟨udp, held, k, library, holds.trans library⟩

/-- An instance that a call returns is alive. -/
theorem alive_made {call : RegistryCall Params Obj} {made : UdpBase Obj} {t : Registry}
    (names : StandardNames p.registry) (numbered : Numbered t)
    (spares : SparesInstances sha256 p (.calls env call))
    (returned : (call.perform sha256 env).run p.entered = .ok (.instance made) t) :
    Alive t made := by
  cases call with
  | constructUdp name params =>
      obtain ⟨made', run, same⟩ := run_map_ok returned
      cases same
      have acts : Acts (Construct sha256 env name) (constructUdp env name params) p.entered _ :=
        acts_constructUdp
      obtain ⟨u, provided, instantiated⟩ := acts.returns _ _ run
      refine alive_of_instantiated numbered instantiated ?_
      intro notOpen
      cases provided with
      | already registered =>
          obtain ⟨loader, found, -, alloc, delete, -⟩ := instantiated
          obtain ⟨allocName, deleteName, -⟩ := names name loader found
          rw [allocName] at alloc
          rw [deleteName] at delete
          exact spares.2 registered notOpen ⟨alloc, delete⟩
      | fromDisk | downloaded => cases openNumber_withOpened.symm.trans notOpen
  | cloneUdp other =>
      obtain ⟨made', run, same⟩ := run_map_ok returned
      cases same
      have instantiated := acts_cloneUdp.returns _ _ run
      refine alive_of_instantiated numbered instantiated ?_
      intro notOpen
      obtain ⟨loader, found, -, clone, delete, -⟩ := instantiated
      obtain ⟨-, deleteName, cloneName⟩ := names _ loader found
      rw [cloneName] at clone
      rw [deleteName] at delete
      exact spares (mem_of_lookup found) notOpen ⟨clone, delete⟩
  | initializeUdp | getLibAsFile | getLibFileHash | registerUdpProvider | setLocalCacheDir
  | useInMemoryCache =>
      obtain ⟨_, _, same⟩ := run_map_ok returned
      cases same

theorem numbered_step {e : ProcessEvent Params Obj} (numbered : Numbered p.registry)
    (step : Process.step sha256 p e = some q) : Numbered q.registry := by
  refine registry_step step numbered ?_ fun _ _ _ => numbered.congr rfl rfl rfl
  intro env call _
  refine RegistryCall.perform_invariant (fun _ _ _ _ change kept => kept.handled change.handled)
    ?_ (numbered.congr rfl rfl rfl)
  intro t u setting kept
  cases setting <;> exact kept.congr rfl rfl rfl

/-- Every instance that is held is alive. -/
def AllAlive (p : Process Obj) : Prop := ∀ udp ∈ p.held, Alive p.registry udp

theorem allAlive_step {e : ProcessEvent Params Obj} (allAlive : AllAlive p)
    (names : StandardNames p.registry) (numbered : Numbered p.registry)
    (spares : SparesInstances sha256 p e) (step : Process.step sha256 p e = some q) :
    AllAlive q := by
  have numbered' : Numbered q.registry := numbered_step numbered step
  cases e with
  | calls env call =>
      cases step
      rw [after_registry] at numbered'
      have old (udp : UdpBase Obj) (held : udp ∈ p.held) :=
        alive_call names spares held (allAlive udp held)
      generalize outcome : (call.perform sha256 env).run p.entered = r at old numbered'
      match r with
      | .ok (.instance made) t =>
          intro udp held
          rcases List.mem_cons.mp held with rfl | held
          · exact alive_made names numbered' spares outcome
          · exact old udp held
      | .ok .done t | .ok (.file _) t | .ok (.hash _) t | .error _ t => exact old
  | destroys k =>
      simp only [Process.step] at step
      split at step
      · cases step
        exact fun udp held => allAlive udp (List.mem_of_mem_eraseIdx held)
      · cases step
  | rebuilt =>
      cases step
      exact allAlive

/-- In a run that spares the libraries in use, the open that a held instance was made from
    has not been closed. -/
theorem held_alive (sha256 : Bytes → String) (directory : String)
    (locate : String → FileId) (files : FileId → Option Bytes)
    (es : List (ProcessEvent Params Obj)) (p : Process Obj)
    (spares : Along (step sha256) (SparesInstances sha256) (start directory locate files) es)
    (run : exec (step sha256) (start directory locate files) es = some p) :
    ∀ udp ∈ p.held, ∃ k, udp.library = some k ∧ k < p.registry.opened ∧ k ∉ p.registry.closed := by
  have initially : AllAlive (start directory locate files : Process Obj) ∧
      StandardNames (start directory locate files : Process Obj).registry ∧
      Numbered (start directory locate files : Process Obj).registry := by
    refine ⟨?_, ?_, ?_, ?_, ?_⟩
    · intro udp held
      cases held
    · intro n loader registered
      cases registered
    · intro k member
      cases member
    · intro n k holds
      cases holds
    · intro m n k holds
      cases holds
  have kept : AllAlive p ∧ StandardNames p.registry ∧ Numbered p.registry := by
    refine exec_invariant
      (I := fun p => AllAlive p ∧ StandardNames p.registry ∧ Numbered p.registry)
      ?_ initially spares run
    intro p e q ⟨allAlive, names, numbered⟩ spares step
    exact ⟨allAlive_step allAlive names numbered spares step, names_step names step,
      numbered_step numbered step⟩
  exact kept.1

/-- An instance and its copy. -/
theorem held_alive_sample :
    ∃ p : Process Unit, exec (step sampleSha256) (start "." id sampleFiles)
        [.calls (sampleOutside none) (.constructUdp "lib" ()),
          .calls (sampleOutside none) (.cloneUdp ⟨(), some 0⟩)] = some p ∧
      p.held = [⟨(), some 0⟩, ⟨(), some 0⟩] ∧
      ∀ udp ∈ p.held, ∃ k, udp.library = some k ∧ k < p.registry.opened ∧
        k ∉ p.registry.closed := by
  refine ⟨_, rfl, rfl, ?_⟩
  refine held_alive sampleSha256 "." id sampleFiles
    [.calls (sampleOutside none) (.constructUdp "lib" ()),
      .calls (sampleOutside none) (.cloneUdp ⟨(), some 0⟩)] _ ⟨⟨?_, ?_⟩, ?_, trivial⟩ rfl
  · intro ⟨_, held, _⟩
    cases held
  · intro registered
    cases registered
  · intro _ notOpen
    cases notOpen

/-- The version refresh closes the library of an instance. -/
theorem held_notAlive :
    ¬∀ (es : List (ProcessEvent Unit Unit)) (p : Process Unit),
      exec (step sampleSha256) (start "." id sampleFiles) es = some p →
      ∀ udp ∈ p.held, ∃ k, udp.library = some k ∧ k < p.registry.opened ∧
        k ∉ p.registry.closed := by
  intro claimed
  obtain ⟨k, library, -, notClosed⟩ := claimed
    [.calls (sampleOutside none) (.registerUdpProvider true),
      .calls (sampleOutside none) (.constructUdp "lib" ()),
      .calls (sampleOutside (some [0x61])) (.initializeUdp "lib" (some (sampleSha256 [0x61])))]
    _ rfl ⟨(), some 0⟩ (List.mem_singleton.mpr rfl)
  cases library
  exact notClosed (Finset.mem_insert_self 0 ∅)

end Process

end Metasolver
