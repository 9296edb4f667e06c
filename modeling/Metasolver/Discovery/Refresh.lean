import Metasolver.Discovery.Process

/-!
# A refresh that fails

`initialize_udp` unloads and deletes an outdated library before it has a replacement.  A
call that throws keeps what was there if it found no other version, if the old library
could not be closed, or if nothing was loaded and cached and the file was not deleted or
was written again as it was.
-/

namespace Metasolver

namespace Registry

open Effects

variable {Params Obj : Type} {sha256 : Bytes → String} {env : Outside Params Obj}
  {n : LibName} {s t u v : Registry} {b : Bytes}

/-- The file, the loaded library and the cache entries of `n` are still there. -/
structure Kept (n : LibName) (s t : Registry) : Prop where
  file : ∀ b, s.fileAt (s.getLibPath n) = some b → t.fileAt (s.getLibPath n) = some b
  loaded : ∀ loader handle, s.libLoaders.lookup n = some loader → loader.handle = some handle →
    ∃ loader', t.libLoaders.lookup n = some loader' ∧ loader'.handle = some handle
  buffered : ∀ b, s.libFilesBuffer.lookup (s.getLibPath n) = some b →
    t.libFilesBuffer.lookup (s.getLibPath n) = some b
  hashed : ∀ x, s.hashCache.lookup n = some x → t.hashCache.lookup n = some x

theorem Kept.refl : Kept n s s where
  file _ h := h
  loaded loader _ registered opened := ⟨loader, registered, opened⟩
  buffered _ h := h
  hashed _ h := h

theorem Gain.localCache_eq (gain : Gain sha256 env n s t) : t.localCache = s.localCache := by
  cases gain <;> rfl

theorem Gain.getLibPath_eq (gain : Gain sha256 env n s t) : t.getLibPath n = s.getLibPath n := by
  rw [getLibPath, gain.localCache_eq, getLibPath]

theorem Gain.kept (gain : Gain sha256 env n s t) : Kept n s t := by
  have same : Kept n s s := Kept.refl
  cases gain with
  | counted | asked => exact ⟨same.file, same.loaded, same.buffered, same.hashed⟩
  | buffered buffer kept => exact { Kept.refl (s := s) with buffered := kept }
  | hashed hashes kept => exact { Kept.refl (s := s) with hashed := kept }
  | saved b absent =>
      refine { Kept.refl (s := s) with file := ?_ }
      intro b' file
      cases absent.symm.trans file
  | loaded b new | notLoaded b new =>
      refine { Kept.refl (s := s) with loaded := ?_ }
      intro loader handle registered
      exact absurd (mem_of_lookup registered) new

theorem Kept.trans (first : Kept n s t) (same : t.getLibPath n = s.getLibPath n)
    (second : Kept n t u) : Kept n s u where
  file b h := same ▸ second.file b (same ▸ first.file b h)
  loaded loader handle registered opened := by
    obtain ⟨loader', registered', opened'⟩ := first.loaded loader handle registered opened
    exact second.loaded loader' handle registered' opened'
  buffered b h := same ▸ second.buffered b (same ▸ first.buffered b h)
  hashed x h := second.hashed x (first.hashed x h)

/-- A function that only adds something keeps what is there. -/
theorem kept_of_acts {α : Type} {x : RegistryM α} {P : α → Registry → Prop}
    (acts : Acts (Gain sha256 env n) x s P) :
    Kept n s (final (x.run s)) ∧ (final (x.run s)).getLibPath n = s.getLibPath n := by
  refine acts.invariant (I := fun t => Kept n s t ∧ t.getLibPath n = s.getLibPath n) ?_
    ⟨Kept.refl, rfl⟩
  intro t u gain ⟨kept, same⟩
  exact ⟨kept.trans same gain.kept, gain.getLibPath_eq.trans same⟩

/-! ## The download after the deletion -/

theorem saveLibIntoFs_run (env : Outside Params Obj) (s : Registry) (n : LibName) (b : Bytes) :
    (saveLibIntoFs env n b).run s =
      match env.fileError s.fileOps, env.fileError (s.fileOps + 1),
        env.writeFails s.asked.length with
      | some e, _, _ => .error e (s.counted (s.fileOps + 1) s.asked)
      | none, some _, _ =>
          .error (.runtimeError ("Error: Failed to open file " ++ s.getLibPath n))
            (s.counted (s.fileOps + 2) s.asked)
      | none, none, true =>
          .error (.runtimeError ("Error: Failed write to file " ++ s.getLibPath n))
            ((s.counted (s.fileOps + 2) s.asked).withFile n (env.written s.asked.length b))
      | none, none, false =>
          .ok ()
            ((s.counted (s.fileOps + 2) s.asked).withFile n (env.written s.asked.length b)) := by
  cases looking : env.fileError s.fileOps <;>
  cases opening : env.fileError (s.fileOps + 1) <;>
  cases writing : env.writeFails s.asked.length <;>
  simp [saveLibIntoFs, fileOp, orThrow, writeFile, counted, withFile, looking, opening, writing]
  all_goals rfl

theorem isLibInCache_run (env : Outside Params Obj) (s : Registry) (n : LibName) :
    (isLibInCache env n).run s = match env.fileError s.fileOps with
      | some e => .error e (s.counted (s.fileOps + 1) s.asked)
      | none => .ok (s.fileAt (s.getLibPath n)).isSome (s.counted (s.fileOps + 1) s.asked) := by
  cases looking : env.fileError s.fileOps <;>
  simp [isLibInCache, fileOp, orThrow, counted, looking]
  rfl

theorem callProvider_run (env : Outside Params Obj) (s : Registry) (n : LibName) :
    (callProvider env n).run s = match env.provider s.asked.length n with
      | .error e => .error e (s.counted s.fileOps (s.asked ++ [n]))
      | .ok r => .ok r (s.counted s.fileOps (s.asked ++ [n])) := by
  cases answer : env.provider s.asked.length n <;>
  simp [callProvider, returned, counted, answer]
  rfl

/-- A download that is written, and what it leaves in the file. -/
def Rewrites (env : Outside Params Obj) (s : Registry) (n : LibName) (b : Bytes) : Prop :=
  env.fileError s.fileOps = none ∧ s.udpProvider = true ∧
    ∃ answer, env.provider s.asked.length n = .ok (some answer) ∧
      env.fileError (s.fileOps + 1) = none ∧ env.fileError (s.fileOps + 2) = none ∧
      env.written (s.asked.length + 1) answer = b

/-- The outcome of a failed attempt to load a library whose file is not there. -/
structure NotProvided (env : Outside Params Obj) (n : LibName) (s t : Registry) : Prop where
  libFilesBuffer : t.libFilesBuffer = s.libFilesBuffer
  hashCache : t.hashCache = s.hashCache
  notLoaded : ∀ loader, t.libLoaders.lookup n = some loader → loader.handle = none
  file : ∀ b, t.fileAt (s.getLibPath n) = some b ↔ Rewrites env s n b

/-- An attempt that ends before a file is written. -/
theorem notProvided_of_counted {k : Nat} {a : List LibName} (new : n ∉ s.libLoaders)
    (absent : s.fileAt (s.getLibPath n) = none) (never : ∀ b, ¬Rewrites env s n b) :
    NotProvided env n s (s.counted k a) where
  libFilesBuffer := rfl
  hashCache := rfl
  notLoaded _ registered := absurd (mem_of_lookup registered) new
  file b := iff_of_false (fun there => nomatch absent.symm.trans there) (never b)

/-- An attempt that ends after a file has been written. -/
theorem notProvided_of_written (content : Bytes) (buffer : t.libFilesBuffer = s.libFilesBuffer)
    (hashes : t.hashCache = s.hashCache)
    (notLoaded : ∀ loader, t.libLoaders.lookup n = some loader → loader.handle = none)
    (written : t.fileAt (s.getLibPath n) = some content)
    (rewrites : ∀ b, Rewrites env s n b ↔ content = b) : NotProvided env n s t where
  libFilesBuffer := buffer
  hashCache := hashes
  notLoaded := notLoaded
  file b := by rw [written, rewrites, Option.some_inj]

/-- A download that fails leaves in the file what it has written. -/
theorem download_error {e : Exn} (new : n ∉ s.libLoaders)
    (absent : s.fileAt (s.getLibPath n) = none) (looked : env.fileError s.fileOps = none)
    (provider : s.udpProvider = true) (answer : env.provider s.asked.length n = .ok (some b))
    (threw : (do
      saveLibIntoFs env n b
      loadLib env n
      return ()).run (s.counted (s.fileOps + 1) (s.asked ++ [n])) = .error e t) :
    NotProvided env n s t := by
  have rewrites (b' : Bytes) : Rewrites env s n b' ↔
      env.fileError (s.fileOps + 1) = none ∧ env.fileError (s.fileOps + 2) = none ∧
        env.written (s.asked.length + 1) b = b' := by
    simp [Rewrites, looked, provider, answer]
  rw [EStateM.run_bind, saveLibIntoFs_run] at threw
  simp only [counted_fileOps, counted_asked, counted_counted, Nat.add_assoc, Nat.reduceAdd] at threw
  cases making : env.fileError (s.fileOps + 1) with
  | some e' =>
      rw [making] at threw
      cases threw
      refine notProvided_of_counted new absent ?_
      rintro b' ⟨-, -, _, -, made, -⟩
      cases making.symm.trans made
  | none =>
  cases opening : env.fileError (s.fileOps + 2) with
  | some e' =>
      rw [making, opening] at threw
      cases threw
      refine notProvided_of_counted new absent ?_
      rintro b' ⟨-, -, _, -, -, opened, -⟩
      cases opening.symm.trans opened
  | none =>
  -- whether or not the write has failed, it has written the file
  rw [asked_length] at threw
  cases writing : env.writeFails (s.asked.length + 1) with
  | true =>
      rw [making, opening, writing] at threw
      cases threw
      refine notProvided_of_written (env.written (s.asked.length + 1) b) rfl rfl ?_
        (Function.update_self _ _ _) ?_
      · exact fun _ registered => absurd (mem_of_lookup registered) new
      · intro b'
        rw [rewrites, making, opening]
        simp
  | false =>
      rw [making, opening, writing] at threw
      have loading := loadLib_run env (n := n) (b := env.written (s.asked.length + 1) b)
        (s := (s.counted (s.fileOps + 3) (s.asked ++ [n])).withFile n
          (env.written (s.asked.length + 1) b)) new (Function.update_self _ _ _)
      dsimp only at threw
      rw [EStateM.run_bind, loading] at threw
      cases fails : env.dlopenFails with
      | false =>
          rw [fails, if_neg Bool.false_ne_true] at threw
          cases threw
      | true =>
          rw [fails, if_pos rfl] at threw
          cases threw
          refine notProvided_of_written (env.written (s.asked.length + 1) b) rfl rfl ?_
            (Function.update_self _ _ _) ?_
          · intro loader registered
            cases (Finmap.lookup_insert _).symm.trans registered
            rfl
          · intro b'
            rw [rewrites, making, opening]
            simp

theorem provideLib_error {function : String} {e : Exn} (new : n ∉ s.libLoaders)
    (absent : s.fileAt (s.getLibPath n) = none)
    (threw : (provideLib env function n).run s = .error e t) : NotProvided env n s t := by
  simp only [provideLib, EStateM.run_bind, EStateM.run_get, new, if_false] at threw
  rw [← EStateM.run_bind, EStateM.run_bind, isLibInCache_run] at threw
  cases looking : env.fileError s.fileOps with
  | some e' =>
      rw [looking] at threw
      cases threw
      refine notProvided_of_counted new absent ?_
      rintro b ⟨looked, -⟩
      cases looking.symm.trans looked
  | none =>
  rw [looking, absent] at threw
  simp only [Option.isSome_none, Bool.false_eq_true, if_false, EStateM.run_bind,
    EStateM.run_get] at threw
  cases provider : s.udpProvider with
  | false =>
      rw [if_neg (by simp [counted, provider])] at threw
      cases threw
      refine notProvided_of_counted new absent ?_
      rintro b ⟨-, provided, -⟩
      cases provider.symm.trans provided
  | true =>
  rw [if_pos (by simp [counted, provider]), EStateM.run_bind, callProvider_run] at threw
  simp only [counted_fileOps, counted_asked, counted_counted] at threw
  cases answer : env.provider s.asked.length n with
  | error e' =>
      rw [answer] at threw
      cases threw
      refine notProvided_of_counted new absent ?_
      rintro b ⟨-, -, _, answered, -⟩
      cases answer.symm.trans answered
  | ok r =>
      rw [answer] at threw
      cases r with
      | none =>
          cases threw
          refine notProvided_of_counted new absent ?_
          rintro b ⟨-, -, _, answered, -⟩
          cases answer.symm.trans answered
      | some b => exact download_error new absent looking provider answer threw

/-! ## The failed refresh -/

/-- The file of the old version could not be deleted. -/
def DeletionFails (env : Outside Params Obj) (s : Registry) : Prop :=
  (env.fileError s.fileOps).isSome ∨ (env.fileError (s.fileOps + 1)).isSome

/-- The outcome of a refresh that fails after the library has been unloaded. -/
structure NotRefreshed (env : Outside Params Obj) (n : LibName) (b : Bytes) (s t : Registry) :
    Prop where
  libFilesBuffer : t.libFilesBuffer = (s.forgetting n).libFilesBuffer
  hashCache : t.hashCache.lookup n = none
  notLoaded : ∀ loader, t.libLoaders.lookup n = some loader → loader.handle = none
  file : t.fileAt (s.getLibPath n) = some b ↔
    DeletionFails env s ∨ Rewrites env (s.counted (s.fileOps + 2) s.asked) n b

theorem refresh_error {function : String} {e : Exn} (new : n ∉ s.libLoaders)
    (file : s.fileAt (s.getLibPath n) = some b)
    (threw : (do
      deleteLibFile env n
      provideLib env function n).run s = .error e t) : NotRefreshed env n b s t := by
  have unregistered (loader : LibLoader) :
      s.libLoaders.lookup n = some loader → loader.handle = none :=
    fun registered => absurd (mem_of_lookup registered) new
  rw [EStateM.run_bind, deleteLibFile_run, file] at threw
  cases looking : env.fileError s.fileOps with
  | some e' =>
      rw [looking] at threw
      cases threw
      refine ⟨rfl, forgetting_hash_self, unregistered, iff_of_true file (Or.inl (Or.inl ?_))⟩
      rw [looking]
      rfl
  | none =>
  cases removing : env.fileError (s.fileOps + 1) with
  | some e' =>
      rw [looking, removing] at threw
      cases threw
      refine ⟨rfl, forgetting_hash_self, unregistered, iff_of_true file (Or.inl (Or.inr ?_))⟩
      rw [removing]
      rfl
  | none =>
      rw [looking, removing] at threw
      have failed := provideLib_error (by exact new) (by exact Function.update_self _ _ _) threw
      refine ⟨failed.libFilesBuffer, ?_, failed.notLoaded, ?_⟩
      · rw [failed.hashCache]
        exact forgetting_hash_self (s := s)
      · have worked : ¬DeletionFails env s := by simp [DeletionFails, looking, removing]
        rw [or_iff_right worked]
        exact failed.file b

/-- The library of `n` is loaded, and closing it fails. -/
def CloseFails (env : Outside Params Obj) (s : Registry) (n : LibName) : Prop :=
  ∃ loader handle, s.libLoaders.lookup n = some loader ∧ loader.handle = some handle ∧
    env.dlcloseFails = true

theorem unloadLib_cases (env : Outside Params Obj) (s : Registry) (n : LibName) :
    (CloseFails env s n ∧ ∃ e, (unloadLib env n).run s = .error e s) ∨
      (¬CloseFails env s n ∧ ∃ closed, (unloadLib env n).run s =
        .ok () { s with libLoaders := s.libLoaders.erase n, closed := closed }) := by
  by_cases member : n ∈ s.libLoaders
  · obtain ⟨loader, registered⟩ := lookup_of_mem member
    have run := unloadLib_run env registered
    cases opened : loader.handle with
    | none =>
        rw [opened] at run
        refine Or.inr ⟨?_, s.closed, run⟩
        intro ⟨loader', handle, registered', opened', _⟩
        cases registered.symm.trans registered'
        cases opened.symm.trans opened'
    | some handle =>
        rw [opened] at run
        cases fails : env.dlcloseFails with
        | true =>
            rw [fails] at run
            exact Or.inl ⟨⟨loader, handle, registered, opened, fails⟩, _, run⟩
        | false =>
            rw [fails] at run
            refine Or.inr ⟨?_, _, run⟩
            intro ⟨_, _, _, _, fails'⟩
            cases fails.symm.trans fails'
  · refine Or.inr ⟨?_, s.closed, ?_⟩
    · intro ⟨loader, _, registered, _⟩
      exact member (mem_of_lookup registered)
    · simp [unloadLib, member,
        UnorderedMap.erase_of_lookup_none (Finmap.lookup_eq_none.mpr member)]

/-- What `get_lib_file_hash` leaves alone, if it finds a file. -/
structure AfterHash (n : LibName) (s u : Registry) : Prop where
  localCache : u.localCache = s.localCache
  libLoaders : u.libLoaders = s.libLoaders
  useInMemoryCache : u.useInMemoryCache = s.useInMemoryCache
  udpProvider : u.udpProvider = s.udpProvider
  found : ∃ b, u.fileAt (s.getLibPath n) = some b
  present : ∀ b, s.fileAt (s.getLibPath n) = some b →
    u.fileAt (s.getLibPath n) = some b ∧ u.asked = s.asked
  reading : (s.fileAt (s.getLibPath n)).isSome →
    (s.useInMemoryCache = true → s.libFilesBuffer.lookup (s.getLibPath n) = none) →
    u.fileOps = s.fileOps + 2

theorem Hashed.afterHash {x : String} (hashed : Hashed sha256 env n s (some x) u) :
    AfterHash n s u := by
  cases hashed with
  | found b _ v hashes fetched =>
      cases fetched with
      | downloaded k b absent =>
          refine ⟨rfl, rfl, rfl, rfl, ⟨_, Function.update_self _ _ _⟩, ?_, ?_⟩
          · intro b' file
            cases absent.symm.trans file
          · intro present
            rw [absent] at present
            cases present
      | present k file b buffer there _ _ reading =>
          exact ⟨rfl, rfl, rfl, rfl, ⟨file, there⟩, fun _ file => ⟨file, rfl⟩,
            fun _ unbuffered => reading (buffered_eq_none.mpr unbuffered)⟩

/-- Nothing of `n` is loaded and cached, and its file is not deleted or is written again as
    it was.  The operations before the deletion are the look-up and the reading of the
    file. -/
structure NothingLost (env : Outside Params Obj) (s : Registry) (n : LibName) : Prop where
  notLoaded : ∀ loader, s.libLoaders.lookup n = some loader → loader.handle = none
  notHashed : s.hashCache.lookup n = none
  notBuffered : s.useInMemoryCache = true → s.libFilesBuffer.lookup (s.getLibPath n) = none
  file : ∀ b, s.fileAt (s.getLibPath n) = some b →
    DeletionFails env (s.counted 2 []) ∨ Rewrites env (s.counted 4 []) n b

theorem rewrites_congr (ops : t.fileOps = s.fileOps) (provider : t.udpProvider = s.udpProvider)
    (asked : t.asked = s.asked) : Rewrites env t n b ↔ Rewrites env s n b := by
  simp only [Rewrites, ops, provider, asked]

/-- After the library has been unloaded, everything of the old version is lost, except for
    what was not there and a file that was not deleted or is the same again. -/
theorem kept_iff_nothingLost {closed : Finset Nat} (afterHash : AfterHash n (s.counted 0 []) u)
    (kept : Kept n (s.counted 0 []) u) (file : u.fileAt (s.getLibPath n) = some b)
    (unloaded : v = { u with libLoaders := u.libLoaders.erase n, closed := closed })
    (failed : NotRefreshed env n b v t) : Kept n s t ↔ NothingLost env s n := by
  have path : v.getLibPath n = s.getLibPath n := by
    rw [unloaded, getLibPath, getLibPath, afterHash.localCache]
    rfl
  have use : v.useInMemoryCache = s.useInMemoryCache := by
    rw [unloaded]
    exact afterHash.useInMemoryCache
  have fileIff (b' : Bytes) (old : s.fileAt (s.getLibPath n) = some b')
      (unbuffered : s.useInMemoryCache = true → s.libFilesBuffer.lookup (s.getLibPath n) = none) :
      t.fileAt (s.getLibPath n) = some b' ↔
        DeletionFails env (s.counted 2 []) ∨ Rewrites env (s.counted 4 []) n b' := by
    obtain ⟨file', asked⟩ := afterHash.present b' old
    cases file.symm.trans file'
    have ops : v.fileOps = 2 := by
      rw [unloaded]
      exact afterHash.reading (Option.isSome_iff_exists.mpr ⟨b, old⟩) unbuffered
    rw [← path, failed.file]
    refine or_congr ?_ (rewrites_congr ?_ ?_ ?_)
    · simp [DeletionFails, ops]
    · simp [ops]
    · rw [unloaded]
      exact afterHash.udpProvider
    · rw [unloaded]
      exact asked
  constructor
  · intro keeps
    have unbuffered (used : s.useInMemoryCache = true) :
        s.libFilesBuffer.lookup (s.getLibPath n) = none := by
      by_contra present
      obtain ⟨b', found⟩ := Option.ne_none_iff_exists'.mp present
      have still := keeps.buffered b' found
      rw [failed.libFilesBuffer, ← path, forgetting_buffer_self (use.trans used)] at still
      cases still
    refine ⟨?_, ?_, unbuffered, ?_⟩
    · intro loader registered
      by_contra present
      obtain ⟨handle, opened⟩ := Option.ne_none_iff_exists'.mp present
      obtain ⟨loader', registered', opened'⟩ := keeps.loaded loader handle registered opened
      cases opened'.symm.trans (failed.notLoaded loader' registered')
    · by_contra present
      obtain ⟨x, found⟩ := Option.ne_none_iff_exists'.mp present
      cases failed.hashCache.symm.trans (keeps.hashed x found)
    · intro b' old
      exact (fileIff b' old unbuffered).mp (keeps.file b' old)
  · intro lost
    refine ⟨?_, ?_, ?_, ?_⟩
    · intro b' old
      exact (fileIff b' old lost.notBuffered).mpr (lost.file b' old)
    · intro loader handle registered opened
      cases (lost.notLoaded loader registered).symm.trans opened
    · intro b' found
      cases used : s.useInMemoryCache with
      | true => cases (lost.notBuffered used).symm.trans found
      | false =>
          rw [failed.libFilesBuffer, forgetting, use, used, if_neg Bool.false_ne_true, unloaded]
          exact kept.buffered b' found
    · intro x found
      cases lost.notHashed.symm.trans found

/-- A call of `initialize_udp` that throws keeps what is there exactly if it finds no other
    version, if the loaded one cannot be closed, or if there is nothing to lose. -/
theorem initializeUdp_keeps_iff (sha256 : Bytes → String) (env : Outside Params Obj)
    (s : Registry) (name : LibName) (libFileHash : Option String) (e : Exn) (t : Registry)
    (threw : (initializeUdp sha256 env name libFileHash).run (s.counted 0 []) = .error e t) :
    Kept name s t ↔ ∀ h, libFileHash = some h → Outdated sha256 env s name h →
      CloseFails env s name ∨ NothingLost env s name := by
  cases libFileHash with
  | none =>
      refine iff_of_true ?_ nofun
      have acts : Acts (Gain sha256 env name) (initializeUdp sha256 env name none)
          (s.counted 0 []) _ := acts_provideLib "initialize"
      have kept := (kept_of_acts acts).1
      rw [threw] at kept
      exact ⟨kept.file, kept.loaded, kept.buffered, kept.hashed⟩
  | some h =>
      simp only [Option.some.injEq, forall_eq']
      by_cases outdated : Outdated sha256 env s name h
      · simp only [outdated, true_implies]
        obtain ⟨x, u, hash, other⟩ := outdated
        have acts : Acts (Gain sha256 env name) (getLibFileHash sha256 env name)
            (s.counted 0 []) _ := acts_getLibFileHash
        have kept := (kept_of_acts acts).1
        rw [hash] at kept
        have afterHash := (acts.returns _ _ hash).afterHash
        have closing : CloseFails env u name ↔ CloseFails env s name := by
          rw [CloseFails, afterHash.libLoaders]
          rfl
        simp only [initializeUdp, checkVersion, EStateM.run_bind, hash, if_pos other] at threw
        rcases unloadLib_cases env u name with ⟨fails, e', unload⟩ | ⟨works, closed, unload⟩
        · rw [unload] at threw
          cases threw
          refine iff_of_true ?_ (Or.inl (closing.mp fails))
          exact ⟨kept.file, kept.loaded, kept.buffered, kept.hashed⟩
        · rw [unload] at threw
          dsimp only at threw
          rw [← EStateM.run_bind] at threw
          obtain ⟨b, file⟩ := afterHash.found
          have path : u.getLibPath name = s.getLibPath name := by
            rw [getLibPath, getLibPath, afterHash.localCache]
            rfl
          have failed := refresh_error (b := b) Finmap.notMem_erase_self
            (by exact path ▸ file) threw
          rw [or_iff_right (closing.not.mp works)]
          exact kept_iff_nothingLost afterHash kept file rfl failed
      · simp only [outdated, false_implies, iff_true]
        have kept := (kept_of_acts (acts_initializeUdp_of_same (hash_of_upToDate outdated))).1
        rw [threw] at kept
        exact ⟨kept.file, kept.loaded, kept.buffered, kept.hashed⟩

/-- A registry without a provider that has loaded the empty file of the examples. -/
def sampleLoaded : Registry :=
  { (Process.start "." id sampleFiles : Process Unit).registry with
    libLoaders := Finmap.insert "lib" { pathToLib := "./lib.so", handle := some ⟨0, []⟩ } ∅
    opened := 1 }

/-- A library that cannot be closed stays as it is. -/
theorem initializeUdp_keeps_sample :
    ∃ e t, (initializeUdp sampleSha256 { sampleOutside none with dlcloseFails := true } "lib"
        (some (sampleSha256 [0x61]))).run (sampleLoaded.counted 0 []) = .error e t ∧
      Kept "lib" sampleLoaded t := by
  refine ⟨_, _, rfl, ?_⟩
  refine (initializeUdp_keeps_iff sampleSha256 { sampleOutside none with dlcloseFails := true }
    sampleLoaded "lib" (some (sampleSha256 [0x61])) _ _ rfl).mpr ?_
  intro h _ _
  exact Or.inl ⟨_, _, rfl, rfl, rfl⟩

/-- Without a provider, a request for another version loses the file and the library. -/
theorem initializeUdp_loses :
    ¬∀ (s : Registry) (env : Outside Unit Unit) (name : LibName) (hash : Option String) (e : Exn)
      (t : Registry), (initializeUdp sampleSha256 env name hash).run (s.counted 0 []) = .error e t →
        Kept name s t := by
  intro claimed
  have kept := claimed sampleLoaded (sampleOutside none) "lib" (some (sampleSha256 [0x61])) _ _ rfl
  cases kept.file [] rfl

end Registry

end Metasolver
