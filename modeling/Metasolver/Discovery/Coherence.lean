import Metasolver.Discovery.Process

/-!
# The caches and the files agree

`Coherent` relates the entries that the two caches have for a file to that file.  Every
change of a call keeps it, as long as files are read and written as a whole and no file is
deleted while the caches have entries for it under another path or name.  From this it
follows that hash and bytes agree.
-/

namespace Metasolver

open Effects Exec

namespace Outside

variable {Params Obj : Type} {env : Outside Params Obj}

/-- Files are read and written as a whole, or it is said that a write has failed. -/
structure Complete (env : Outside Params Obj) : Prop where
  reads : env.readStops = none
  writes : ∀ k, env.writeFails k = false → env.writeStops k = none

theorem readFile_eq (reads : env.readStops = none) (file : Bytes) : env.readFile file = file := by
  rw [readFile, reads]

theorem Complete.written_eq (complete : env.Complete) {k : Nat}
    (works : env.writeFails k = false) (file : Bytes) : env.written k file = file := by
  rw [written, complete.writes k works]

end Outside

namespace Registry

variable {Params Obj : Type} {sha256 : Bytes → String} {env : Outside Params Obj} {f : FileId}
  {n m : LibName} {s t u : Registry}

/-- What the caches hold for the file is what it is. -/
structure Coherent (sha256 : Bytes → String) (f : FileId) (s : Registry) : Prop where
  buffered : ∀ p b, s.locate p = f → s.libFilesBuffer.lookup p = some b → s.files f = some b
  unused : s.useInMemoryCache = false → ∀ p, s.locate p = f → s.libFilesBuffer.lookup p = none
  hashed : ∀ m x, s.locate (s.getLibPath m) = f → s.hashCache.lookup m = some x →
    ∃ b, s.files f = some b ∧ x = sha256 b

/-- The caches have no entries for the file of `n` but those of `n`. -/
structure Alone (n : LibName) (s : Registry) : Prop where
  path : ∀ p, p ≠ s.getLibPath n → s.locate p = s.locate (s.getLibPath n) →
    s.libFilesBuffer.lookup p = none
  name : ∀ m, m ≠ n → s.locate (s.getLibPath m) = s.locate (s.getLibPath n) →
    s.hashCache.lookup m = none

/-- Bytes that have been handed out are those of the file. -/
theorem Coherent.of_handed {b : Bytes} (complete : env.Complete) (coherent : Coherent sha256 f s)
    (leads : s.locate (s.getLibPath n) = f) (handed : Handed env n s b) : s.files f = some b := by
  subst leads
  rcases handed with ⟨file, there, read | ⟨k, written, works⟩⟩ | buffered
  · rw [Outside.readFile_eq complete.reads] at read
    subst read
    exact there
  · rw [complete.written_eq works] at written
    subst written
    exact there
  · exact coherent.buffered _ b rfl buffered

/-- No entry belongs to a file that is not there. -/
theorem Coherent.ne_of_absent {g : FileId} {b : Bytes} (there : s.files f = some b)
    (absent : s.files g = none) : f ≠ g := by
  intro same
  subst same
  cases absent.symm.trans there

theorem Coherent.gain (complete : env.Complete) (coherent : Coherent sha256 f s)
    (change : Gain sha256 env n s t) : Coherent sha256 f t := by
  cases change with
  | counted | asked | loaded | notLoaded =>
      exact ⟨coherent.buffered, coherent.unused, coherent.hashed⟩
  | buffered buffer kept source =>
      refine ⟨?_, ?_, coherent.hashed⟩
      · intro p b leads found
        rcases source p b found with old | ⟨-, ⟨file, there, read⟩, -⟩
        · exact coherent.buffered p b leads old
        · rw [Outside.readFile_eq complete.reads] at read
          subst read leads
          exact there
      · intro unused p leads
        by_contra present
        obtain ⟨b, found⟩ := Option.ne_none_iff_exists'.mp present
        rcases source p b found with old | ⟨-, -, used⟩
        · cases (coherent.unused unused p leads).symm.trans old
        · cases unused.symm.trans used
  | hashed hashes kept source =>
      refine ⟨coherent.buffered, coherent.unused, ?_⟩
      intro m x leads found
      rcases source m x found with old | ⟨same, b, hash, handed⟩
      · exact coherent.hashed m x leads old
      · subst same
        have there : s.files f = some b := coherent.of_handed complete leads handed
        exact ⟨b, there, hash⟩
  | saved b absent =>
      refine ⟨?_, coherent.unused, ?_⟩
      · intro p b' leads found
        have there := coherent.buffered p b' leads found
        exact (Function.update_of_ne (Coherent.ne_of_absent there absent) _ _).trans there
      · intro m x leads found
        obtain ⟨b', there, hash⟩ := coherent.hashed m x leads found
        exact ⟨b', (Function.update_of_ne (Coherent.ne_of_absent there absent) _ _).trans there,
          hash⟩

theorem Coherent.loss (coherent : Coherent sha256 f s)
    (alone : s.locate (s.getLibPath n) = f → Alone n s) (change : Loss env n s t) :
    Coherent sha256 f t := by
  cases change with
  | unloaded | unregistered => exact ⟨coherent.buffered, coherent.unused, coherent.hashed⟩
  | forgotten buffer hashes source hashSource =>
      refine ⟨?_, ?_, ?_⟩
      · intro p b leads found
        exact coherent.buffered p b leads (source p b found)
      · intro unused p leads
        by_contra present
        obtain ⟨b, found⟩ := Option.ne_none_iff_exists'.mp present
        cases (coherent.unused unused p leads).symm.trans (source p b found)
      · intro m x leads found
        exact coherent.hashed m x leads (hashSource m x found)
  | deleted notLoaded notBuffered notHashed =>
      -- an entry that is left would be one for another file
      refine ⟨?_, coherent.unused, ?_⟩
      · intro p b leads found
        have other : f ≠ s.locate (s.getLibPath n) := by
          intro same
          by_cases own : p = s.getLibPath n
          · subst own
            cases use : s.useInMemoryCache with
            | true => cases (notBuffered use).symm.trans found
            | false => cases (coherent.unused use _ leads).symm.trans found
          · cases ((alone same.symm).path p own (leads.trans same)).symm.trans found
        exact (Function.update_of_ne other _ _).trans (coherent.buffered p b leads found)
      · intro m x leads found
        have other : f ≠ s.locate (s.getLibPath n) := by
          intro same
          by_cases own : m = n
          · subst own
            cases notHashed.symm.trans found
          · cases ((alone same.symm).name m own (leads.trans same)).symm.trans found
        obtain ⟨b, there, hash⟩ := coherent.hashed m x leads found
        exact ⟨b, (Function.update_of_ne other _ _).trans there, hash⟩

/-- A call adds entries for its own path and name only. -/
theorem Alone.change (alone : Alone n s)
    (apart : m ≠ n → s.locate (s.getLibPath m) ≠ s.locate (s.getLibPath n))
    (change : Change sha256 env m s t) : Alone n t := by
  rcases change with (gain | loss) | use | close
  · cases gain with
    | counted | asked | saved | loaded | notLoaded => exact ⟨alone.path, alone.name⟩
    | buffered buffer kept source =>
        refine ⟨?_, alone.name⟩
        intro p other leads
        by_contra present
        obtain ⟨b, found⟩ := Option.ne_none_iff_exists'.mp present
        rcases source p b found with old | ⟨own, -⟩
        · cases (alone.path p other leads).symm.trans old
        · subst own
          exact apart (fun same => other (congrArg s.getLibPath same)) leads
    | hashed hashes kept source =>
        refine ⟨alone.path, ?_⟩
        intro k other leads
        by_contra present
        obtain ⟨x, found⟩ := Option.ne_none_iff_exists'.mp present
        rcases source k x found with old | ⟨own, -⟩
        · cases (alone.name k other leads).symm.trans old
        · subst own
          exact apart other leads
  · cases loss with
    | unloaded | unregistered | deleted => exact ⟨alone.path, alone.name⟩
    | forgotten buffer hashes source hashSource =>
        refine ⟨?_, ?_⟩
        · intro p other leads
          by_contra present
          obtain ⟨b, found⟩ := Option.ne_none_iff_exists'.mp present
          cases (alone.path p other leads).symm.trans (source p b found)
        · intro k other leads
          by_contra present
          obtain ⟨x, found⟩ := Option.ne_none_iff_exists'.mp present
          cases (alone.name k other leads).symm.trans (hashSource k x found)
  · cases use
    exact ⟨alone.path, alone.name⟩
  · cases close
    exact ⟨alone.path, alone.name⟩

theorem Coherent.use (coherent : Coherent sha256 f s) (change : Use n s t) :
    Coherent sha256 f t := by
  cases change
  exact ⟨coherent.buffered, coherent.unused, coherent.hashed⟩

theorem Coherent.construct (complete : env.Complete) (coherent : Coherent sha256 f s)
    (change : Construct sha256 env n s t) : Coherent sha256 f t := by
  rcases change with gain | use | close
  · exact coherent.gain complete gain
  · exact coherent.use use
  · cases close
    exact ⟨coherent.buffered, coherent.unused, coherent.hashed⟩

theorem Coherent.change (complete : env.Complete) (coherent : Coherent sha256 f s)
    (alone : s.locate (s.getLibPath n) = f → Alone n s) (change : Change sha256 env n s t) :
    Coherent sha256 f t := by
  rcases change with (gain | loss) | rest
  · exact coherent.gain complete gain
  · exact coherent.loss alone loss
  · exact coherent.construct complete (Or.inr rest)

/-- What is handed out for a file that is there. -/
theorem Coherent.getD_eq {b : Bytes} (reads : env.readStops = none)
    (coherent : Coherent sha256 (s.locate (s.getLibPath n)) s)
    (there : s.fileAt (s.getLibPath n) = some b) : (s.buffered n).getD (env.readFile b) = b := by
  rw [Outside.readFile_eq reads]
  cases known : s.buffered n with
  | none => rfl
  | some b' =>
      have file : s.fileAt (s.getLibPath n) = some b' :=
        coherent.buffered _ b' rfl (lookup_of_buffered known)
      exact Option.some.inj (file.symm.trans there)

/-- The hash that is told of a file that is there. -/
theorem Coherent.hash_of_file {x : String} {b : Bytes} (reads : env.readStops = none)
    (coherent : Coherent sha256 (s.locate (s.getLibPath n)) s)
    (there : s.fileAt (s.getLibPath n) = some b) (hashed : Hashed sha256 env n s (some x) u) :
    x = sha256 b ∧ u.fileAt (u.getLibPath n) = some b := by
  cases hashed with
  | found b' _ v hashes fetched value =>
      cases fetched with
      | downloaded k b' absent => cases absent.symm.trans there
      | present k file b' buffer there' handed =>
          cases there.symm.trans there'
          rw [coherent.getD_eq reads there] at handed
          subst handed
          refine ⟨?_, there⟩
          rcases value with known | ⟨-, hash⟩
          · obtain ⟨b'', file, hash⟩ := coherent.hashed n x rfl known
            cases there.symm.trans file
            exact hash
          · exact hash

/-- The hash that is told is that of the file, which is there afterwards. -/
theorem Coherent.hash_eq {x : String} (complete : env.Complete)
    (coherent : Coherent sha256 (s.locate (s.getLibPath n)) s)
    (hashed : Hashed sha256 env n s (some x) u) :
    ∃ b, x = sha256 b ∧ u.fileAt (u.getLibPath n) = some b := by
  cases there : s.fileAt (s.getLibPath n) with
  | some b => exact ⟨b, coherent.hash_of_file complete.reads there hashed⟩
  | none =>
      cases hashed with
      | found b _ v hashes fetched value =>
          cases fetched with
          | present k file b buffer there' => cases there.symm.trans there'
          | downloaded k b absent answer works =>
              rcases value with known | ⟨-, hash⟩
              · obtain ⟨b', file, -⟩ := coherent.hashed n x rfl known
                cases there.symm.trans file
              · refine ⟨b, hash, ?_⟩
                rw [complete.written_eq works]
                exact Function.update_self _ _ _

end Registry

/-! ## The hash and the bytes -/

namespace Process

open Registry

variable {Params Obj : Type} {sha256 : Bytes → String} {env : Outside Params Obj}
  {n : LibName} {p q : Process Obj}

/-- The step leaves no cached bytes or hash behind that are not those of the file.  Files are
    read and written as a whole; an outdated file is cached for its own library only; in a
    new directory the libraries with a cached hash have that hash too; and a rebuilt file is
    not cached, or cached as it is now. -/
def KeepsHashes (sha256 : Bytes → String) (p : Process Obj) : ProcessEvent Params Obj → Prop
  | .calls env (.initializeUdp name libFileHash) =>
      env.Complete ∧ ∀ h, libFileHash = some h → Outdated sha256 env p.registry name h →
        Alone name p.registry
  | .calls env (.constructUdp _ _) => env.Complete
  | .calls env (.getLibAsFile _) => env.Complete
  | .calls env (.getLibFileHash _) => env.Complete
  | .calls _ (.setLocalCacheDir directory) =>
      ∀ n x, p.registry.hashCache.lookup n = some x →
        ∃ b, p.registry.fileAt (libPath directory n) = some b ∧ x = sha256 b
  | .rebuilt file content =>
      (∀ path b, p.registry.locate path = file → p.registry.libFilesBuffer.lookup path = some b →
        b = content) ∧
      ∀ n x, p.registry.locate (p.registry.getLibPath n) = file →
        p.registry.hashCache.lookup n = some x → x = sha256 content
  | _ => True

/-- A setter, apart from that of the directory. -/
theorem coherent_setting {f : FileId} {call : RegistryCall Params Obj} {s t : Registry}
    (fixed : ∀ directory, call ≠ .setLocalCacheDir directory) (setting : call.Setting s t)
    (coherent : Coherent sha256 f s) : Coherent sha256 f t := by
  cases setting with
  | provider => exact ⟨coherent.buffered, coherent.unused, coherent.hashed⟩
  | directory directory called => exact absurd called (fixed directory)
  | cleared => exact ⟨nofun, fun _ _ _ => rfl, coherent.hashed⟩
  | toggled value empty =>
      exact ⟨coherent.buffered, fun unused p _ => empty unused p, coherent.hashed⟩

theorem Coherent.entered {f : FileId} (coherent : Coherent sha256 f p.registry) :
    Coherent sha256 f p.entered := ⟨coherent.buffered, coherent.unused, coherent.hashed⟩

theorem coherent_call {call : RegistryCall Params Obj}
    (coherent : ∀ f, Coherent sha256 f p.registry)
    (keeps : KeepsHashes sha256 p (.calls env call)) :
    ∀ f, Coherent sha256 f (final ((call.perform sha256 env).run p.entered)) := by
  have entered (f : FileId) : Coherent sha256 f p.entered := Coherent.entered (coherent f)
  cases call with
  | initializeUdp name libFileHash =>
      obtain ⟨complete, alone⟩ := keeps
      refine final_bind_pure (I := fun t => ∀ f, Coherent sha256 f t) ?_
      cases libFileHash with
      | none =>
          have acts : Acts (Gain sha256 env name) (initializeUdp sha256 env name none) p.entered
              _ := acts_provideLib "initialize"
          exact fun f => acts.invariant (fun _ _ gain kept => Coherent.gain complete kept gain)
            (entered f)
      | some h =>
          by_cases outdated : Outdated sha256 env p.registry name h
          · have alone' := alone h rfl outdated
            have own : Alone name p.entered := ⟨alone'.path, alone'.name⟩
            refine (acts_initializeUdp.invariant
              (I := fun t => (∀ f, Coherent sha256 f t) ∧ Alone name t) ?_ ⟨entered, own⟩).1
            intro t u refresh ⟨kept, own⟩
            have change : Change sha256 env name t u := Change.of_refresh refresh
            exact ⟨fun f => (kept f).change complete (fun _ => own) change,
              own.change (fun other => absurd rfl other) change⟩
          · have acts : Acts (Gain sha256 env name) (initializeUdp sha256 env name (some h))
                p.entered _ := acts_initializeUdp_of_same (hash_of_upToDate outdated)
            exact fun f => acts.invariant (fun _ _ gain kept => Coherent.gain complete kept gain)
              (entered f)
  | constructUdp name params =>
      refine final_bind_pure (I := fun t => ∀ f, Coherent sha256 f t) fun f => ?_
      have acts : Acts (Construct sha256 env name) (constructUdp env name params) p.entered _ :=
        acts_constructUdp
      exact acts.invariant (fun _ _ change kept => Coherent.construct keeps kept change) (entered f)
  | cloneUdp other =>
      refine final_bind_pure (I := fun t => ∀ f, Coherent sha256 f t) fun f => ?_
      exact acts_cloneUdp.invariant (fun _ _ use kept => Coherent.use kept use) (entered f)
  | getLibAsFile libName =>
      refine final_bind_pure (I := fun t => ∀ f, Coherent sha256 f t) fun f => ?_
      exact acts_getLibAsFile.invariant (fun _ _ gain kept => Coherent.gain keeps kept gain)
        (entered f)
  | getLibFileHash libName =>
      refine final_bind_pure (I := fun t => ∀ f, Coherent sha256 f t) fun f => ?_
      exact acts_getLibFileHash.invariant (fun _ _ gain kept => Coherent.gain keeps kept gain)
        (entered f)
  | setLocalCacheDir directory =>
      intro f
      refine ⟨(coherent f).buffered, (coherent f).unused, ?_⟩
      intro n x leads found
      obtain ⟨b, there, hash⟩ := keeps n x found
      subst leads
      exact ⟨b, there, hash⟩
  | registerUdpProvider | useInMemoryCache =>
      intro f
      refine (RegistryCall.acts_setting rfl).invariant (fun _ _ => coherent_setting ?_) (entered f)
      nofun

theorem coherent_step {e : ProcessEvent Params Obj} (coherent : ∀ f, Coherent sha256 f p.registry)
    (keeps : KeepsHashes sha256 p e) (step : Process.step sha256 p e = some q) :
    ∀ f, Coherent sha256 f q.registry := by
  refine registry_step (I := fun s => ∀ f, Coherent sha256 f s) step coherent ?_ ?_
  · intro env call event
    subst event
    exact coherent_call coherent keeps
  · intro file content event f
    subst event
    obtain ⟨keepsBuffer, keepsHash⟩ := keeps
    by_cases same : f = file
    · subst same
      refine ⟨?_, (coherent f).unused, ?_⟩
      · intro path b leads found
        rw [keepsBuffer path b leads found]
        exact Function.update_self _ _ _
      · intro n x leads found
        exact ⟨content, Function.update_self _ _ _, keepsHash n x leads found⟩
    · refine ⟨?_, (coherent f).unused, ?_⟩
      · intro path b leads found
        exact (Function.update_of_ne same _ _).trans ((coherent f).buffered path b leads found)
      · intro n x leads found
        obtain ⟨b, there, hash⟩ := (coherent f).hashed n x leads found
        exact ⟨b, (Function.update_of_ne same _ _).trans there, hash⟩

/-- A file that is asked for right after its hash has that hash. -/
theorem served_hash {s t u : Registry} {env' : Outside Params Obj} {h : String} {b : Bytes}
    (coherent : ∀ f, Coherent sha256 f s) (complete : env.Complete)
    (reads : env'.readStops = none)
    (hash : (getLibFileHash sha256 env n).run s = .ok (some h) t)
    (file : (getLibAsFile env' n).run (t.counted 0 []) = .ok (some b) u) : h = sha256 b := by
  obtain ⟨b', value, there⟩ :=
    Coherent.hash_eq complete (coherent _) (acts_getLibFileHash.returns _ _ hash)
  have coherent' : Coherent sha256 (t.locate (t.getLibPath n))
      (final ((getLibFileHash sha256 env n).run s)) :=
    acts_getLibFileHash.invariant (fun _ _ gain kept => Coherent.gain complete kept gain)
      (coherent _)
  rw [hash] at coherent'
  have acts : Acts (Gain sha256 env' n) (getLibAsFile env' n) (t.counted 0 []) _ :=
    acts_getLibAsFile
  generalize again : t.counted 0 [] = t' at acts file
  have fetched := acts.returns _ _ file
  subst again
  cases fetched with
  | downloaded k _ absent => cases absent.symm.trans there
  | present k content _ buffer there' handed =>
      cases there.symm.trans there'
      have again : (t.buffered n).getD (env'.readFile b') = b' := coherent'.getD_eq reads there
      rw [value, handed]
      exact congrArg sha256 again.symm

theorem coherent_start {directory : String} {locate : String → FileId}
    {files : FileId → Option Bytes} (f : FileId) :
    Coherent sha256 f (start directory locate files : Process Obj).registry :=
  ⟨nofun, nofun, nofun⟩

/-- As long as no step leaves an outdated cache entry behind, the hash of a library is that
    of the bytes that are served. -/
theorem getLibFileHash_served (sha256 : Bytes → String) (directory : String)
    (locate : String → FileId) (files : FileId → Option Bytes)
    (es : List (ProcessEvent Params Obj)) (p : Process Obj)
    (keeps : Along (step sha256) (KeepsHashes sha256) (start directory locate files) es)
    (run : exec (step sha256) (start directory locate files) es = some p)
    (env env' : Outside Params Obj) (name : LibName) (h : String) (b : Bytes) (t u : Registry)
    (complete : env.Complete) (reads : env'.readStops = none)
    (hash : (getLibFileHash sha256 env name).run p.entered = .ok (some h) t)
    (file : (getLibAsFile env' name).run (t.counted 0 []) = .ok (some b) u) : h = sha256 b := by
  have coherent : ∀ f, Coherent sha256 f p.registry :=
    exec_invariant (I := fun p => ∀ f, Coherent sha256 f p.registry)
      (fun _ _ _ coherent keeps step => coherent_step coherent keeps step)
      coherent_start keeps run
  exact served_hash (fun f => Coherent.entered (coherent f)) complete reads hash file

/-- A file that is rebuilt before its hash is asked for. -/
theorem getLibFileHash_served_sample :
    "ca978112ca1bbdcafac231b39a23dc4da786eff8147c4e72b9807785afee48bb" = sampleSha256 [0x61] :=
  getLibFileHash_served sampleSha256 "." id sampleFiles [.rebuilt "./lib.so" [0x61]] _
    ⟨⟨nofun, nofun⟩, trivial⟩ rfl (sampleOutside none) (sampleOutside none) "lib" _ [0x61] _ _
    ⟨rfl, fun _ _ => rfl⟩ rfl rfl rfl

/-- A file that is rebuilt after its hash has been cached: the old hash is told, the new
    file is served. -/
theorem getLibFileHash_outdated :
    ¬∀ (es : List (ProcessEvent Unit Unit)) (p : Process Unit),
      exec (step sampleSha256) (start "." id sampleFiles) es = some p →
      ∀ (env env' : Outside Unit Unit) (name : LibName) (h : String) (b : Bytes) (t u : Registry),
        (getLibFileHash sampleSha256 env name).run p.entered = .ok (some h) t →
        (getLibAsFile env' name).run (t.counted 0 []) = .ok (some b) u → h = sampleSha256 b := by
  intro claimed
  have equal := claimed
    [.calls (sampleOutside none) (.useInMemoryCache false),
      .calls (sampleOutside none) (.getLibFileHash "lib"),
      .rebuilt "./lib.so" [0x61]] _ rfl
    (sampleOutside none) (sampleOutside none) "lib" (sampleSha256 []) [0x61] _ _ rfl rfl
  revert equal
  decide

end Process

end Metasolver
