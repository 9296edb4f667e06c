import Metasolver.Discovery.Coherence

/-!
# A version check settles

A call on a library with another file touches neither the file nor the loader of `n`, and
leaves no cache entry for that file.  Once `initialize_udp` has returned, the file has the
requested hash, so the same call again finds nothing to do, whatever the caches have
forgotten in between.  A library of another name that is the same file replaces it, and so
does a write that fails unseen.
-/

namespace Metasolver

open Effects Exec

namespace Registry

variable {Params Obj : Type} {sha256 : Bytes → String} {env : Outside Params Obj}
  {n m : LibName} {s t u : Registry}

/-- The file and the loader of `n` are the same. -/
structure Untouched (n : LibName) (s t : Registry) : Prop where
  localCache : t.localCache = s.localCache
  locate : t.locate = s.locate
  file : t.fileAt (t.getLibPath n) = s.fileAt (s.getLibPath n)
  loader : t.libLoaders.lookup n = s.libLoaders.lookup n

theorem Untouched.refl : Untouched n s s := ⟨rfl, rfl, rfl, rfl⟩

theorem Untouched.trans (first : Untouched n s t) (second : Untouched n t u) :
    Untouched n s u where
  localCache := second.localCache.trans first.localCache
  locate := second.locate.trans first.locate
  file := second.file.trans first.file
  loader := second.loader.trans first.loader

/-- A change for a library with another file. -/
theorem Change.untouched (other : m ≠ n)
    (apart : s.locate (s.getLibPath m) ≠ s.locate (s.getLibPath n))
    (change : Change sha256 env m s t) : Untouched n s t := by
  have inserted (loader : LibLoader) :
      (s.withLoader m loader).libLoaders.lookup n = s.libLoaders.lookup n :=
    Finmap.lookup_insert_of_ne _ other.symm
  rcases change with (gain | loss) | use | close
  · cases gain with
    | counted | asked | buffered | hashed => exact ⟨rfl, rfl, rfl, rfl⟩
    | saved => exact ⟨rfl, rfl, Function.update_of_ne apart.symm _ _, rfl⟩
    | loaded | notLoaded => exact ⟨rfl, rfl, rfl, inserted _⟩
  · cases loss with
    | unloaded | unregistered => exact ⟨rfl, rfl, rfl, Finmap.lookup_erase_ne other.symm⟩
    | forgotten => exact ⟨rfl, rfl, rfl, rfl⟩
    | deleted => exact ⟨rfl, rfl, Function.update_of_ne apart.symm _ _, rfl⟩
  · cases use
    exact ⟨rfl, rfl, rfl, inserted _⟩
  · cases close
    exact ⟨rfl, rfl, rfl, inserted _⟩

/-- A call does not change where the paths lead. -/
theorem Change.located (change : Change sha256 env m s t) :
    t.localCache = s.localCache ∧ t.locate = s.locate := by
  rcases change with (gain | loss) | use | close
  · cases gain <;> exact ⟨rfl, rfl⟩
  · cases loss <;> exact ⟨rfl, rfl⟩
  · cases use
    exact ⟨rfl, rfl⟩
  · cases close
    exact ⟨rfl, rfl⟩

/-- The registry looks for `n` in the directory, and the caches have no entries for its file
    but those of `n`, which are what the file is. -/
structure Tidy (sha256 : Bytes → String) (directory : String) (locate : String → FileId)
    (n : LibName) (s : Registry) : Prop where
  localCache : s.localCache = directory
  located : s.locate = locate
  coherent : Coherent sha256 (locate (libPath directory n)) s
  alone : Alone n s

variable {directory : String} {locate : String → FileId}

theorem Tidy.coherent' (tidy : Tidy sha256 directory locate n s) :
    Coherent sha256 (s.locate (s.getLibPath n)) s := by
  rw [getLibPath, tidy.localCache, tidy.located]
  exact tidy.coherent

theorem Tidy.counted (tidy : Tidy sha256 directory locate n s) (k : Nat) (a : List LibName) :
    Tidy sha256 directory locate n (s.counted k a) where
  localCache := tidy.localCache
  located := tidy.located
  coherent := ⟨tidy.coherent.buffered, tidy.coherent.unused, tidy.coherent.hashed⟩
  alone := ⟨tidy.alone.path, tidy.alone.name⟩

theorem Tidy.change (complete : env.Complete)
    (apart : m ≠ n → locate (libPath directory m) ≠ locate (libPath directory n))
    (tidy : Tidy sha256 directory locate n s) (change : Change sha256 env m s t) :
    Tidy sha256 directory locate n t := by
  obtain ⟨localCache, located⟩ := change.located
  refine ⟨localCache.trans tidy.localCache, located.trans tidy.located, ?_, ?_⟩
  · refine tidy.coherent.change complete ?_ change
    intro same
    by_cases own : m = n
    · subst own
      exact tidy.alone
    · rw [getLibPath, tidy.localCache, tidy.located] at same
      exact absurd same (apart own)
  · refine tidy.alone.change ?_ change
    rw [getLibPath, getLibPath, tidy.localCache, tidy.located]
    exact apart

/-- The library is registered and its file has the hash `h`. -/
def Holds (sha256 : Bytes → String) (n : LibName) (h : String) (s : Registry) : Prop :=
  n ∈ s.libLoaders ∧ ∃ b, s.fileAt (s.getLibPath n) = some b ∧ sha256 b = h

theorem Untouched.holds {h : String} (untouched : Untouched n s t) (holds : Holds sha256 n h s) :
    Holds sha256 n h t := by
  obtain ⟨registered, b, file, hash⟩ := holds
  refine ⟨?_, b, untouched.file.trans file, hash⟩
  obtain ⟨loader, registered⟩ := lookup_of_mem registered
  exact mem_of_lookup (untouched.loader.trans registered)

/-- If the provider sends nothing but the requested version, the call leaves it there. -/
theorem holds_of_initialized {h : String} (complete : env.Complete)
    (coherent : Coherent sha256 (s.locate (s.getLibPath n)) s)
    (answers : ∀ k b, env.provider k n = .ok (some b) → sha256 b = h)
    (outcome : Initialized sha256 env n s (some h) t) : Holds sha256 n h t := by
  cases outcome with
  | checked _ u _ checked provided =>
      cases provided with
      | already registered =>
          cases checked with
          | same _ hashed =>
              obtain ⟨b, hash, file⟩ := coherent.hash_eq complete hashed
              exact ⟨registered, b, file, hash.symm⟩
          | outdated x v _ hashed other localCache asked unloaded =>
              exact absurd registered unloaded
      | fromDisk k b new file =>
          cases checked with
          | same _ hashed =>
              obtain ⟨b', hash, file'⟩ := coherent.hash_eq complete hashed
              exact ⟨Finmap.mem_insert.mpr (Or.inl rfl), b', file', hash.symm⟩
          | outdated x v _ hashed other localCache asked unloaded deleted =>
              cases deleted.symm.trans file
      | downloaded k b new absent answer works =>
          refine ⟨Finmap.mem_insert.mpr (Or.inl rfl), b, ?_, answers _ b answer⟩
          rw [complete.written_eq works]
          exact Function.update_self _ _ _

/-- Once the requested version is there, the call does not ask for it and does not touch
    it, whether it returns or throws. -/
theorem initializeUdp_of_holds {h : String} (reads : env.readStops = none)
    (coherent : Coherent sha256 (s.locate (s.getLibPath n)) s) (fresh : s.asked = [])
    (holds : Holds sha256 n h s) :
    Untouched n s (final ((initializeUdp sha256 env n (some h)).run s)) ∧
      (final ((initializeUdp sha256 env n (some h)).run s)).asked = [] := by
  obtain ⟨registered, b, file, hash⟩ := holds
  have same (x : String) (t : Registry)
      (run : (getLibFileHash sha256 env n).run s = .ok (some x) t) : x = h := by
    have hashed := acts_getLibFileHash.returns _ _ run
    rw [(coherent.hash_of_file reads file hashed).1, hash]
  refine (acts_initializeUdp_of_same same).invariant
    (I := fun t => Untouched n s t ∧ t.asked = []) ?_ ⟨Untouched.refl, fresh⟩
  intro t u gain ⟨untouched, asked⟩
  have there : t.fileAt (t.getLibPath n) = some b := untouched.file.trans file
  have registered' : n ∈ t.libLoaders := by
    obtain ⟨loader, registered⟩ := lookup_of_mem registered
    exact mem_of_lookup (untouched.loader.trans registered)
  cases gain with
  | counted | buffered | hashed =>
      exact ⟨⟨untouched.localCache, untouched.locate, untouched.file, untouched.loader⟩, asked⟩
  | asked absent => cases absent.symm.trans there
  | saved _ absent => cases absent.symm.trans there
  | loaded _ new => exact absurd registered' new
  | notLoaded _ new => exact absurd registered' new

end Registry

namespace ProcessEvent

variable {Params Obj : Type}

/-- Neither the directory changes nor, from outside, a file. -/
def FixedFiles : ProcessEvent Params Obj → Prop
  | .calls _ (.setLocalCacheDir _) => False
  | .rebuilt _ _ => False
  | _ => True

/-- Files are read and written as a whole. -/
def Complete : ProcessEvent Params Obj → Prop
  | .calls env _ => env.Complete
  | _ => True

/-- A call on another name than `n` is on another file than that of `n`. -/
def Apart (locate : String → FileId) (directory : String) (n : LibName) :
    ProcessEvent Params Obj → Prop
  | .calls env call => ∀ m, call.name env = some m → m ≠ n →
      locate (libPath directory m) ≠ locate (libPath directory n)
  | _ => True

/-- The event is no call on the library `n`. -/
def NotOn (n : LibName) : ProcessEvent Params Obj → Prop
  | .calls env call => call.name env ≠ some n
  | _ => True

/-- The files are those of the registry and the libraries have files of their own. -/
structure Regular (locate : String → FileId) (directory : String) (n : LibName)
    (e : ProcessEvent Params Obj) : Prop where
  fixed : e.FixedFiles
  complete : e.Complete
  apart : e.Apart locate directory n

end ProcessEvent

namespace Process

open Registry ProcessEvent

variable {Params Obj : Type} {sha256 : Bytes → String} {env : Outside Params Obj}
  {n : LibName} {directory : String} {locate : String → FileId} {files : FileId → Option Bytes}
  {es : List (ProcessEvent Params Obj)} {e : ProcessEvent Params Obj} {p q : Process Obj}

theorem fixed_directory {call : RegistryCall Params Obj} {directory : String}
    (fixed : (ProcessEvent.calls env call).FixedFiles) : call ≠ .setLocalCacheDir directory := by
  intro called
  subst called
  cases fixed

theorem tidy_setting {call : RegistryCall Params Obj} {s t : Registry}
    (fixed : (ProcessEvent.calls env call).FixedFiles) (setting : call.Setting s t)
    (tidy : Tidy sha256 directory locate n s) : Tidy sha256 directory locate n t := by
  have coherent := coherent_setting (fun _ => fixed_directory fixed) setting tidy.coherent
  cases setting with
  | directory _ called => exact absurd called (fixed_directory fixed)
  | provider | toggled =>
      exact ⟨tidy.localCache, tidy.located, coherent, ⟨tidy.alone.path, tidy.alone.name⟩⟩
  | cleared =>
      exact ⟨tidy.localCache, tidy.located, coherent, ⟨fun _ _ _ => rfl, tidy.alone.name⟩⟩

theorem tidy_step (tidy : Tidy sha256 directory locate n p.registry)
    (regular : e.Regular locate directory n) (step : Process.step sha256 p e = some q) :
    Tidy sha256 directory locate n q.registry := by
  refine registry_step step tidy ?_ ?_
  · intro env call event
    subst event
    refine RegistryCall.perform_invariant ?_ ?_ (tidy.counted 0 [])
    · intro m named t u change kept
      exact kept.change regular.complete (regular.apart m named) change
    · intro t u setting kept
      exact tidy_setting regular.fixed setting kept
  · intro file content event
    subst event
    cases regular.fixed

theorem tidy_start : Tidy sha256 directory locate n
    (start directory locate files : Process Obj).registry :=
  ⟨rfl, rfl, ⟨nofun, nofun, nofun⟩, ⟨fun _ _ _ => rfl, fun _ _ _ => rfl⟩⟩

theorem tidy_run (regular : ∀ e ∈ es, e.Regular locate directory n)
    (tidy : Tidy sha256 directory locate n p.registry)
    (run : exec (step sha256) p es = some q) : Tidy sha256 directory locate n q.registry := by
  have guarded : Along (step sha256) (fun _ e => e.Regular locate directory n) p es :=
    along_mono (fun _ e member => regular e member) (along_mem es)
  exact exec_invariant (I := fun p : Process Obj => Tidy sha256 directory locate n p.registry)
    (fun _ _ _ tidy regular step => tidy_step tidy regular step) tidy guarded run

/-- A step that is no call on `n` leaves the file and the loader of `n`. -/
theorem untouched_step (tidy : Tidy sha256 directory locate n p.registry)
    (regular : e.Regular locate directory n) (notOn : e.NotOn n)
    (step : Process.step sha256 p e = some q) : Untouched n p.registry q.registry := by
  refine registry_step step Untouched.refl ?_ ?_
  · intro env call event
    subst event
    refine RegistryCall.perform_invariant (I := Untouched n p.registry) ?_ ?_ ⟨rfl, rfl, rfl, rfl⟩
    · intro m named t u change untouched
      have other : m ≠ n := by
        intro same
        subst same
        exact notOn named
      refine untouched.trans (change.untouched other ?_)
      rw [getLibPath, getLibPath, untouched.localCache, untouched.locate, tidy.localCache,
        tidy.located]
      exact regular.apart m named other
    · intro t u setting untouched
      refine untouched.trans ?_
      cases setting with
      | directory _ called => exact absurd called (fixed_directory regular.fixed)
      | provider | cleared | toggled => exact ⟨rfl, rfl, rfl, rfl⟩
  · intro file content event
    subst event
    cases regular.fixed

/-- A version that has been loaded stays there until the next call on the library. -/
theorem holds_run {h : String} (tidy : Tidy sha256 directory locate n p.registry)
    (holds : Holds sha256 n h p.registry)
    (quiet : ∀ e ∈ es, e.Regular locate directory n ∧ e.NotOn n)
    (run : exec (step sha256) p es = some q) : Holds sha256 n h q.registry := by
  have guarded : Along (step sha256) (fun _ e => e.Regular locate directory n ∧ e.NotOn n) p es :=
    along_mono (fun _ e member => quiet e member) (along_mem es)
  refine (exec_invariant (I := fun p : Process Obj =>
    Tidy sha256 directory locate n p.registry ∧ Holds sha256 n h p.registry)
    ?_ ⟨tidy, holds⟩ guarded run).2
  intro p e q ⟨tidy, holds⟩ ⟨regular, notOn⟩ step
  exact ⟨tidy_step tidy regular step, (untouched_step tidy regular notOn step).holds holds⟩

/-- After a first `initialize_udp` for which the provider had nothing but the requested
    version, a second one asks for nothing and leaves the file and the loader as they are. -/
theorem initializeUdp_settles (sha256 : Bytes → String) (directory : String)
    (locate : String → FileId) (files : FileId → Option Bytes)
    (es es' : List (ProcessEvent Params Obj)) (p q : Process Obj) (env env' : Outside Params Obj)
    (name : LibName) (h : String) (t : Registry)
    (regular : ∀ e ∈ es, e.Regular locate directory name)
    (run : exec (step sha256) (start directory locate files) es = some p)
    (complete : env.Complete)
    (answers : ∀ k b, env.provider k name = .ok (some b) → sha256 b = h)
    (returned : (initializeUdp sha256 env name (some h)).run p.entered = .ok () t)
    (quiet : ∀ e ∈ es', e.Regular locate directory name ∧ e.NotOn name)
    (run' : exec (step sha256) ⟨t, p.held⟩ es' = some q) (reads : env'.readStops = none) :
    Untouched name q.registry
        (final ((initializeUdp sha256 env' name (some h)).run q.entered)) ∧
      (final ((initializeUdp sha256 env' name (some h)).run q.entered)).asked = [] := by
  have tidy : Tidy sha256 directory locate name p.registry := tidy_run regular tidy_start run
  have entered : Tidy sha256 directory locate name p.entered := tidy.counted 0 []
  have holds : Holds sha256 name h t :=
    holds_of_initialized complete entered.coherent' answers
      (acts_initializeUdp.returns _ _ returned)
  have after : Tidy sha256 directory locate name t := by
    have kept : Tidy sha256 directory locate name
        (final ((initializeUdp sha256 env name (some h)).run p.entered)) :=
      acts_initializeUdp.invariant
        (fun _ _ refresh kept => Tidy.change complete (fun other => absurd rfl other) kept
          (Change.of_refresh refresh)) entered
    rw [returned] at kept
    exact kept
  have tidy' : Tidy sha256 directory locate name q.registry :=
    tidy_run (p := ⟨t, p.held⟩) (fun e member => (quiet e member).1) after run'
  have holds' : Holds sha256 name h q.registry :=
    holds_run (p := ⟨t, p.held⟩) after holds quiet run'
  have holdsEntered : Holds sha256 name h q.entered := holds'
  obtain ⟨untouched, asked⟩ :=
    initializeUdp_of_holds reads (tidy'.counted 0 []).coherent' rfl holdsEntered
  exact ⟨⟨untouched.localCache, untouched.locate, untouched.file, untouched.loader⟩, asked⟩

/-- A download, a call on another library and a toggle of the buffer; then the provider
    would send another version. -/
theorem initializeUdp_settles_sample :
    ∃ (q : Process Unit), exec (step sampleSha256) (start "." id sampleFiles)
        [.calls (sampleOutside none) (.registerUdpProvider true),
          .calls (sampleOutside (some [0x61]))
            (.initializeUdp "lib" (some (sampleSha256 [0x61])) : RegistryCall Unit Unit),
          .calls (sampleOutside (some [0x62])) (.getLibAsFile "other"),
          .calls (sampleOutside none) (.useInMemoryCache false)] = some q ∧
      Untouched "lib" q.registry (final ((initializeUdp sampleSha256 (sampleOutside (some [0x62]))
        "lib" (some (sampleSha256 [0x61]))).run q.entered)) ∧
      (final ((initializeUdp sampleSha256 (sampleOutside (some [0x62])) "lib"
        (some (sampleSha256 [0x61]))).run q.entered)).asked = [] := by
  have whole (answer : Option Bytes) : (sampleOutside answer).Complete := ⟨rfl, fun _ _ => rfl⟩
  refine ⟨_, rfl, ?_⟩
  refine initializeUdp_settles sampleSha256 "." id sampleFiles
    [.calls (sampleOutside none) (.registerUdpProvider true)]
    [.calls (sampleOutside (some [0x62])) (.getLibAsFile "other"),
      .calls (sampleOutside none) (.useInMemoryCache false)] _ _
    (sampleOutside (some [0x61])) _ "lib" _ _ ?_ rfl (whole _) ?_ rfl ?_ rfl rfl
  · intro e member
    obtain rfl := List.mem_singleton.mp member
    exact ⟨trivial, whole _, nofun⟩
  · intro _ b answer
    cases answer
    rfl
  · intro e member
    simp only [List.mem_cons, List.not_mem_nil, or_false] at member
    rcases member with rfl | rfl
    · refine ⟨⟨trivial, whole _, ?_⟩, by simp [NotOn, RegistryCall.name]⟩
      intro m named
      cases named
      decide
    · exact ⟨⟨trivial, whole _, nofun⟩, nofun⟩

/-- `lib` and `./lib` are one file. -/
def sampleLocate (path : String) : FileId := if path = "././lib.so" then "./lib.so" else path

/-- The outdated file has been replaced.  Then a call on the other name of the file replaces
    it by another version, or the replacement has not been written to its end. -/
theorem initializeUdp_unsettled :
    (¬∀ (es es' : List (ProcessEvent Unit Unit)) (p q : Process Unit) (env env' : Outside Unit Unit)
        (name : LibName) (h : String) (t : Registry),
      (∀ e ∈ es ++ es', e.FixedFiles ∧ e.Complete) →
      exec (step sampleSha256) (start "." sampleLocate sampleFiles) es = some p →
      env.Complete → (∀ k b, env.provider k name = .ok (some b) → sampleSha256 b = h) →
      (initializeUdp sampleSha256 env name (some h)).run p.entered = .ok () t →
      (∀ e ∈ es', e.NotOn name) → exec (step sampleSha256) ⟨t, p.held⟩ es' = some q →
      env'.Complete →
      (final ((initializeUdp sampleSha256 env' name (some h)).run q.entered)).asked = []) ∧
    ¬∀ (es : List (ProcessEvent Unit Unit)) (p : Process Unit) (env env' : Outside Unit Unit)
        (name : LibName) (h : String) (t : Registry),
      (∀ e ∈ es, e.FixedFiles) →
      exec (step sampleSha256) (start "." id sampleFiles) es = some p →
      env.readStops = none → (∀ k b, env.provider k name = .ok (some b) → sampleSha256 b = h) →
      (initializeUdp sampleSha256 env name (some h)).run p.entered = .ok () t →
      env'.Complete →
      (final ((initializeUdp sampleSha256 env' name (some h)).run
        (t.counted 0 []))).asked = [] := by
  have whole (answer : Option Bytes) : (sampleOutside answer).Complete := ⟨rfl, fun _ _ => rfl⟩
  have requested (answer : Option Bytes) (hash : answer = some [0x61]) (k : Nat) (b : Bytes)
      (sent : (sampleOutside answer).provider k "lib" = .ok (some b)) :
      sampleSha256 b = sampleSha256 [0x61] := by
    subst hash
    cases sent
    rfl
  constructor
  · intro claimed
    have nothing := claimed [.calls (sampleOutside none) (.registerUdpProvider true)]
      [.calls (sampleOutside (some [0x62])) (.initializeUdp "./lib" (some (sampleSha256 [0x62])))]
      _ _ (sampleOutside (some [0x61])) (sampleOutside none) "lib" (sampleSha256 [0x61]) _ ?_ rfl
      (whole _) (requested _ rfl) rfl ?_ rfl (whole _)
    · revert nothing
      decide
    · intro e member
      simp only [List.cons_append, List.nil_append, List.mem_cons, List.not_mem_nil,
        or_false] at member
      rcases member with rfl | rfl <;> exact ⟨trivial, whole _⟩
    · intro e member
      obtain rfl := List.mem_singleton.mp member
      simp [NotOn, RegistryCall.name]
  · intro claimed
    have nothing := claimed [.calls (sampleOutside none) (.registerUdpProvider true)] _
      { sampleOutside (some [0x61]) with writeStops := fun _ => some 0 } (sampleOutside none)
      "lib" (sampleSha256 [0x61]) _ ?_ rfl rfl (requested _ rfl) rfl (whole _)
    · revert nothing
      decide
    · intro e member
      obtain rfl := List.mem_singleton.mp member
      trivial

end Process

end Metasolver
