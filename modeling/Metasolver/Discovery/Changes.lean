import Metasolver.Discovery.Registry
import Metasolver.Lib.Effects

/-!
# What a registry call can change

A call that is about the library `n` changes the registry in a few ways: `Gain` lists
those that add something (an entry of a cache, a file, a loader), `Loss` those of the
version refresh, and `Close` is the one of `lib_loader::get_instance`.  Each function is a
chain of them, whether it returns or throws, and where it returns its specification says
in which state.  The invariants of the registry look at the changes only.
-/

namespace Metasolver

namespace Registry

open Effects

variable {Params Obj : Type} {sha256 : Bytes → String} {env : Outside Params Obj}
  {n m : LibName} {s t u : Registry}

/-- The registry with other counts of the running call. -/
def counted (s : Registry) (k : Nat) (a : List LibName) : Registry :=
  { s with fileOps := k, asked := a }

@[simp] theorem counted_fileOps (k : Nat) (a : List LibName) : (s.counted k a).fileOps = k := rfl

@[simp] theorem counted_asked (k : Nat) (a : List LibName) : (s.counted k a).asked = a := rfl

@[simp] theorem counted_counted (k l : Nat) (a b : List LibName) :
    (s.counted k a).counted l b = s.counted l b := rfl

@[simp] theorem counted_getLibPath (k : Nat) (a : List LibName) :
    (s.counted k a).getLibPath n = s.getLibPath n := rfl

/-- The registry with a file written for `n`. -/
def withFile (s : Registry) (n : LibName) (b : Bytes) : Registry :=
  { s with files := Function.update s.files (s.locate (s.getLibPath n)) (some b) }

def withLoader (s : Registry) (n : LibName) (loader : LibLoader) : Registry :=
  { s with libLoaders := s.libLoaders.insert n loader }

/-- The registry after an open of the library of `n`. -/
def withOpened (s : Registry) (n : LibName) (b : Bytes) : Registry :=
  { s.withLoader n { pathToLib := s.getLibPath n, handle := some ⟨s.opened, b⟩ } with
    opened := s.opened + 1 }

def withBuffer (s : Registry) (buffer : Lru String Bytes) : Registry :=
  { s with libFilesBuffer := buffer }

def withHashes (s : Registry) (hashes : Lru LibName String) : Registry :=
  { s with hashCache := hashes }

/-- The bytes in the file buffer for `n`, if the buffer is used. -/
def buffered (s : Registry) (n : LibName) : Option Bytes :=
  if s.useInMemoryCache then s.libFilesBuffer.lookup (s.getLibPath n) else none

theorem lookup_of_buffered {b : Bytes} (known : s.buffered n = some b) :
    s.libFilesBuffer.lookup (s.getLibPath n) = some b := by
  rw [buffered] at known
  split at known
  · exact known
  · cases known

theorem buffered_eq_none :
    s.buffered n = none ↔
      (s.useInMemoryCache = true → s.libFilesBuffer.lookup (s.getLibPath n) = none) := by
  rw [buffered]
  split <;> simp [*]

/-- Bytes that `get_lib_as_file` hands out for `n`: as they have been read, as they were
    given to a write that has not failed, or from the buffer. -/
def Handed (env : Outside Params Obj) (n : LibName) (s : Registry) (b : Bytes) : Prop :=
  (∃ file, s.fileAt (s.getLibPath n) = some file ∧
    (b = env.readFile file ∨ ∃ k, file = env.written k b ∧ env.writeFails k = false)) ∨
  s.libFilesBuffer.lookup (s.getLibPath n) = some b

/-! ## The changes -/

/-- Changes that take nothing away.  The provider is asked only for a file that is not
    there. -/
inductive Gain (sha256 : Bytes → String) (env : Outside Params Obj) (n : LibName)
    (s : Registry) : Registry → Prop where
  | counted (k : Nat) : Gain sha256 env n s (s.counted k s.asked)
  | asked (absent : s.fileAt (s.getLibPath n) = none) :
      Gain sha256 env n s (s.counted s.fileOps (s.asked ++ [n]))
  | buffered (buffer : Lru String Bytes)
      (kept : ∀ b, s.libFilesBuffer.lookup (s.getLibPath n) = some b →
        buffer.lookup (s.getLibPath n) = some b)
      (source : ∀ p b, buffer.lookup p = some b → s.libFilesBuffer.lookup p = some b ∨
        (p = s.getLibPath n ∧ (∃ file, s.fileAt p = some file ∧ b = env.readFile file) ∧
          s.useInMemoryCache = true)) :
      Gain sha256 env n s (s.withBuffer buffer)
  | hashed (hashes : Lru LibName String)
      (kept : ∀ x, s.hashCache.lookup n = some x → hashes.lookup n = some x)
      (source : ∀ m x, hashes.lookup m = some x → s.hashCache.lookup m = some x ∨
        (m = n ∧ ∃ b, x = sha256 b ∧ Handed env n s b)) :
      Gain sha256 env n s (s.withHashes hashes)
  | saved (b : Bytes) (absent : s.fileAt (s.getLibPath n) = none) :
      Gain sha256 env n s (s.withFile n b)
  | loaded (b : Bytes) (new : n ∉ s.libLoaders) (file : s.fileAt (s.getLibPath n) = some b) :
      Gain sha256 env n s (s.withOpened n (env.linked (s.getLibPath n) b))
  | notLoaded (b : Bytes) (new : n ∉ s.libLoaders) (file : s.fileAt (s.getLibPath n) = some b)
      (fails : env.dlopenFails = true) :
      Gain sha256 env n s (s.withLoader n { pathToLib := s.getLibPath n })

/-- Changes of the version refresh. -/
inductive Loss (env : Outside Params Obj) (n : LibName) (s : Registry) : Registry → Prop where
  | unloaded (loader : LibLoader) (handle : LibHandle)
      (registered : s.libLoaders.lookup n = some loader) (opened : loader.handle = some handle)
      (works : env.dlcloseFails = false) :
      Loss env n s { s with
        libLoaders := s.libLoaders.erase n, closed := insert handle.number s.closed }
  | unregistered (loader : LibLoader) (registered : s.libLoaders.lookup n = some loader)
      (notOpened : loader.handle = none) :
      Loss env n s { s with libLoaders := s.libLoaders.erase n }
  | forgotten (buffer : Lru String Bytes) (hashes : Lru LibName String)
      (source : ∀ p b, buffer.lookup p = some b → s.libFilesBuffer.lookup p = some b)
      (hashSource : ∀ m x, hashes.lookup m = some x → s.hashCache.lookup m = some x) :
      Loss env n s ((s.withBuffer buffer).withHashes hashes)
  | deleted (notLoaded : n ∉ s.libLoaders)
      (notBuffered : s.useInMemoryCache = true → s.libFilesBuffer.lookup (s.getLibPath n) = none)
      (notHashed : s.hashCache.lookup n = none) :
      Loss env n s { s with files := Function.update s.files (s.locate (s.getLibPath n)) none }

/-- The function that a library runs after its load. -/
inductive Use (n : LibName) (s : Registry) : Registry → Prop where
  | ranAfterLoad (loader : LibLoader) (registered : s.libLoaders.lookup n = some loader) :
      Use n s (s.withLoader n { loader with afterLoadExecuted := true })

/-- A library without allocator or deleter is closed and stays registered. -/
inductive Close (env : Outside Params Obj) (n : LibName) (s : Registry) : Registry → Prop where
  | closed (loader : LibLoader) (handle : LibHandle)
      (registered : s.libLoaders.lookup n = some loader) (opened : loader.handle = some handle)
      (missing : env.dlsym loader.allocSymbol = false ∨ env.dlsym loader.deleteSymbol = false)
      (works : env.dlcloseFails = false) :
      Close env n s { s.withLoader n { loader with handle := none } with
        closed := insert handle.number s.closed }

/-- The changes of `initialize_udp`. -/
def Refresh (sha256 : Bytes → String) (env : Outside Params Obj) (n : LibName)
    (s t : Registry) : Prop :=
  Gain sha256 env n s t ∨ Loss env n s t

/-- The changes of `construct_udp`. -/
def Construct (sha256 : Bytes → String) (env : Outside Params Obj) (n : LibName)
    (s t : Registry) : Prop :=
  Gain sha256 env n s t ∨ Use n s t ∨ Close env n s t

/-- The changes of a call. -/
def Change (sha256 : Bytes → String) (env : Outside Params Obj) (n : LibName)
    (s t : Registry) : Prop :=
  Refresh sha256 env n s t ∨ Use n s t ∨ Close env n s t

theorem Refresh.of_gain (h : Gain sha256 env n s t) : Refresh sha256 env n s t := Or.inl h

theorem Change.of_refresh (h : Refresh sha256 env n s t) : Change sha256 env n s t := Or.inl h

theorem Change.of_gain (h : Gain sha256 env n s t) : Change sha256 env n s t := Or.inl (Or.inl h)

theorem Change.of_use (h : Use n s t) : Change sha256 env n s t := Or.inr (Or.inl h)

theorem Change.of_construct (h : Construct sha256 env n s t) : Change sha256 env n s t :=
  h.imp_left Or.inl

theorem Construct.of_gain (h : Gain sha256 env n s t) : Construct sha256 env n s t := Or.inl h

theorem Construct.of_use (h : Use n s t) : Construct sha256 env n s t := Or.inr (Or.inl h)

theorem Construct.of_close (h : Close env n s t) : Construct sha256 env n s t := Or.inr (Or.inr h)

/-! ## File operations and the provider -/

theorem acts_fileOp : Acts (Gain sha256 env n) (fileOp env) s fun e t =>
    e = env.fileError s.fileOps ∧ t = s.counted (s.fileOps + 1) s.asked where
  steps := .single (.counted (s.fileOps + 1))
  returns e t run := by
    cases run
    exact ⟨rfl, rfl⟩

theorem acts_orThrow {R : Registry → Registry → Prop} (e : Option Exn) :
    Acts R (orThrow e) s fun _ t => e = none ∧ t = s := by
  cases e with
  | none => exact Acts.pure ⟨rfl, rfl⟩
  | some e => exact Acts.throw

theorem acts_returned {α : Type} {R : Registry → Registry → Prop} (r : Except Exn α) :
    Acts R (returned r) s fun a t => r = .ok a ∧ t = s := by
  cases r with
  | ok a => exact Acts.pure ⟨rfl, rfl⟩
  | error e => exact Acts.throw

theorem acts_callProvider (absent : s.fileAt (s.getLibPath n) = none) :
    Acts (Gain sha256 env n) (callProvider env n) s fun r t =>
      env.provider s.asked.length n = .ok r ∧ t = s.counted s.fileOps (s.asked ++ [n]) := by
  refine Acts.bind (P := fun k t => k = s.asked.length ∧ t = s.counted s.fileOps (s.asked ++ [n]))
    ⟨.single (.asked absent), ?_⟩ ?_
  · intro k t run
    cases run
    exact ⟨rfl, rfl⟩
  · intro k t ⟨count, after⟩
    subst count after
    exact acts_returned _

theorem acts_isLibInCache : Acts (Gain sha256 env n) (isLibInCache env n) s fun found t =>
    found = (s.fileAt (s.getLibPath n)).isSome ∧ t = s.counted (s.fileOps + 1) s.asked := by
  refine acts_fileOp.bind ?_
  rintro e t ⟨-, rfl⟩
  refine (acts_orThrow e).bind ?_
  rintro - t ⟨-, rfl⟩
  refine Acts.get_bind ?_
  exact Acts.pure ⟨rfl, rfl⟩

theorem acts_writeFile {path : String} (b : Bytes) (inPlace : path = s.getLibPath n)
    (absent : s.fileAt (s.getLibPath n) = none) :
    Acts (Gain sha256 env n) (writeFile path b) s fun _ t => t = s.withFile n b := by
  subst inPlace
  refine ⟨.single (.saved b absent), ?_⟩
  rintro _ t run
  cases run
  rfl

theorem acts_saveLibIntoFs (b : Bytes) (absent : s.fileAt (s.getLibPath n) = none) :
    Acts (Gain sha256 env n) (saveLibIntoFs env n b) s fun _ t =>
      env.writeFails s.asked.length = false ∧
        ∃ k, t = (s.counted k s.asked).withFile n (env.written s.asked.length b) := by
  refine Acts.get_bind ?_
  refine acts_fileOp.bind ?_
  rintro e t ⟨-, rfl⟩
  refine (acts_orThrow e).bind ?_
  rintro - t ⟨-, rfl⟩
  refine acts_fileOp.bind ?_
  rintro opening t ⟨-, rfl⟩
  split
  · exact Acts.throw
  refine Acts.get_bind ((acts_writeFile (env.written s.asked.length b) ?_ ?_).bind ?_)
  · rfl
  · exact absent
  rintro - t rfl
  split
  case isTrue => exact Acts.throw
  case isFalse works => exact Acts.pure ⟨Bool.eq_false_iff.mpr works, _, rfl⟩

theorem asked_length : (s.asked ++ [n]).length = s.asked.length + 1 := List.length_append

theorem acts_setBuffer (change : Lru String Bytes → Lru String Bytes)
    (kept : ∀ b, s.libFilesBuffer.lookup (s.getLibPath n) = some b →
      (change s.libFilesBuffer).lookup (s.getLibPath n) = some b)
    (source : ∀ p b, (change s.libFilesBuffer).lookup p = some b →
      s.libFilesBuffer.lookup p = some b ∨
        (p = s.getLibPath n ∧ (∃ file, s.fileAt p = some file ∧ b = env.readFile file) ∧
          s.useInMemoryCache = true)) :
    Acts (Gain sha256 env n)
      (modify fun s => { s with libFilesBuffer := change s.libFilesBuffer } : RegistryM Unit) s
      fun _ t => t = s.withBuffer (change s.libFilesBuffer) :=
  Acts.modify (.buffered _ kept source) rfl

theorem acts_setHashes (change : Lru LibName String → Lru LibName String)
    (kept : ∀ x, s.hashCache.lookup n = some x → (change s.hashCache).lookup n = some x)
    (source : ∀ m x, (change s.hashCache).lookup m = some x → s.hashCache.lookup m = some x ∨
      (m = n ∧ ∃ b, x = sha256 b ∧ Handed env n s b)) :
    Acts (Gain sha256 env n)
      (modify fun s => { s with hashCache := change s.hashCache } : RegistryM Unit) s
      fun _ t => t = s.withHashes (change s.hashCache) :=
  Acts.modify (.hashed _ kept source) rfl

/-! ## Files and hashes -/

/-- The outcome of `get_lib_as_file`: the file was not there and has been asked for, or it
    was there and its bytes came from the buffer or the disk. -/
inductive Fetched (env : Outside Params Obj) (n : LibName) (s : Registry) :
    Option Bytes → Registry → Prop where
  | missing (k : Nat) (a : List LibName) : Fetched env n s none (s.counted k a)
  | downloaded (k : Nat) (b : Bytes) (absent : s.fileAt (s.getLibPath n) = none)
      (answer : env.provider s.asked.length n = .ok (some b))
      (works : env.writeFails (s.asked.length + 1) = false) :
      Fetched env n s (some b)
        ((s.counted k (s.asked ++ [n])).withFile n (env.written (s.asked.length + 1) b))
  | present (k : Nat) (file b : Bytes) (buffer : Lru String Bytes)
      (there : s.fileAt (s.getLibPath n) = some file)
      (value : b = (s.buffered n).getD (env.readFile file))
      (kept : ∀ b', s.libFilesBuffer.lookup (s.getLibPath n) = some b' →
        buffer.lookup (s.getLibPath n) = some b')
      (reading : s.buffered n = none → k = s.fileOps + 2) :
      Fetched env n s (some b) ((s.counted k s.asked).withBuffer buffer)

theorem acts_download (absent : s.fileAt (s.getLibPath n) = none) {k : Nat} :
    Acts (Gain sha256 env n) (do
      let libFile ← callProvider env n
      match libFile with
      | none => pure ()
      | some file => saveLibIntoFs env n file
      return libFile) (s.counted k s.asked) (Fetched env n s) := by
  refine (acts_callProvider ?_).bind ?_
  · exact absent
  rintro (_ | b) t ⟨answer, rfl⟩
  · exact Acts.pure (.missing _ _)
  · refine (acts_saveLibIntoFs b ?_).bind ?_
    · exact absent
    · rintro - t ⟨works, k', rfl⟩
      have fetched : Fetched env n s (some b) _ :=
        .downloaded k' b absent answer (asked_length ▸ works)
      rw [← asked_length] at fetched
      exact Acts.pure fetched

theorem acts_bufferedFile {file b : Bytes} (there : s.fileAt (s.getLibPath n) = some file)
    (use : s.useInMemoryCache = true)
    (found : s.libFilesBuffer.lookup (s.getLibPath n) = some b) {k : Nat} :
    Acts (Gain sha256 env n) (do
      let (file, buffer) ← returned ((← get).libFilesBuffer.get (s.getLibPath n))
      modify fun s => { s with libFilesBuffer := buffer }
      return some file) (s.counted k s.asked) (Fetched env n s) := by
  obtain ⟨buffer, got, same⟩ := Lru.get_of_lookup found
  refine Acts.get_bind ((acts_returned _).bind ?_)
  rintro _ _ ⟨answer, rfl⟩
  cases got.symm.trans answer
  refine (acts_setBuffer (fun _ => buffer) ?_ ?_).bind ?_
  · intro b' h
    exact (same _).trans h
  · intro p b' h
    exact Or.inl ((same p).symm.trans h)
  · rintro - t rfl
    have known : s.buffered n = some b := (if_pos use).trans found
    refine Acts.pure (.present _ file b _ there ?_ (fun _ => (same _).trans) ?_)
    · rw [known]
      rfl
    · intro unbuffered
      cases unbuffered.symm.trans known

theorem acts_readFile {file : Bytes} (there : s.fileAt (s.getLibPath n) = some file)
    (unknown : s.useInMemoryCache = true → s.libFilesBuffer.lookup (s.getLibPath n) = none) :
    Acts (Gain sha256 env n) (do
      if (← fileOp env).isSome then
        return none
      match (← get).fileAt (s.getLibPath n) with
      | none => return none
      | some file =>
          let fileContent := env.readFile file
          if (← get).useInMemoryCache then
            modify fun t =>
              { t with libFilesBuffer := t.libFilesBuffer.put (s.getLibPath n) fileContent }
          return some fileContent) (s.counted (s.fileOps + 1) s.asked) (Fetched env n s) := by
  have unbuffered : s.buffered n = none := buffered_eq_none.mpr unknown
  have value : env.readFile file = (s.buffered n).getD (env.readFile file) := by
    rw [unbuffered]
    rfl
  refine acts_fileOp.bind ?_
  rintro reading t ⟨-, rfl⟩
  split
  · exact Acts.pure (.missing _ _)
  refine Acts.get_bind ?_
  split
  case h_1 => exact Acts.pure (.missing _ _)
  case h_2 file' there' =>
    cases there.symm.trans there'
    refine Acts.get_bind ?_
    split
    case isTrue use =>
      refine (acts_setBuffer (Lru.put · (s.getLibPath n) (env.readFile file)) ?_ ?_).bind ?_
      · intro b' h
        cases (unknown use).symm.trans h
      · intro p b' h
        by_cases same : p = s.getLibPath n
        · subst same
          cases Lru.lookup_put_self.symm.trans h
          exact Or.inr ⟨rfl, ⟨file, there, rfl⟩, use⟩
        · exact Or.inl (Lru.lookup_put_of_ne same h)
      · rintro - t rfl
        refine Acts.pure (.present _ file _ _ there value ?_ fun _ => rfl)
        intro b' h
        cases (unknown use).symm.trans h
    case isFalse =>
      exact Acts.pure (.present (s.fileOps + 2) file _ s.libFilesBuffer there value
        (fun _ => id) fun _ => rfl)

theorem acts_getLibAsFile :
    Acts (Gain sha256 env n) (getLibAsFile env n) s (Fetched env n s) := by
  refine acts_isLibInCache.bind ?_
  rintro found t ⟨rfl, rfl⟩
  split
  case isTrue absent =>
    refine Acts.get_bind ?_
    split
    · exact acts_download (by simpa using absent)
    · exact Acts.pure (.missing _ _)
  case isFalse present =>
    obtain ⟨file, there⟩ : ∃ file, s.fileAt (s.getLibPath n) = some file := by
      simpa [← Option.isSome_iff_exists, Option.isSome_iff_ne_none] using present
    refine Acts.get_bind (Acts.get_bind (Acts.get_bind ?_))
    split
    case isTrue hit =>
      obtain ⟨use, hit⟩ := Bool.and_eq_true_iff.mp hit
      obtain ⟨b, found⟩ := Lru.contains_iff.mp hit
      exact acts_bufferedFile there use found
    case isFalse miss =>
      refine acts_readFile there fun use => ?_
      have missed : ¬s.libFilesBuffer.contains (s.getLibPath n) = true := by
        intro contained
        exact miss (Bool.and_eq_true_iff.mpr ⟨use, contained⟩)
      exact Lru.contains_eq_false.mp (Bool.eq_false_iff.mpr missed)

/-- The outcome of `get_lib_file_hash`: the hash is the cached one, or that of the bytes. -/
inductive Hashed (sha256 : Bytes → String) (env : Outside Params Obj) (n : LibName)
    (s : Registry) : Option String → Registry → Prop where
  | missing (u : Registry) (fetched : Fetched env n s none u) : Hashed sha256 env n s none u
  | found (b : Bytes) (x : String) (u : Registry) (hashes : Lru LibName String)
      (fetched : Fetched env n s (some b) u)
      (value : s.hashCache.lookup n = some x ∨ (s.hashCache.lookup n = none ∧ x = sha256 b))
      (known : hashes.lookup n = some x) :
      Hashed sha256 env n s (some x) (u.withHashes hashes)

theorem Fetched.hashCache_eq {r : Option Bytes} (h : Fetched env n s r u) :
    u.hashCache = s.hashCache := by
  cases h <;> rfl

theorem Fetched.handed {b : Bytes} (h : Fetched env n s (some b) u) : Handed env n u b := by
  cases h with
  | downloaded k b absent answer works =>
      exact Or.inl ⟨_, Function.update_self _ _ _, Or.inr ⟨_, rfl, works⟩⟩
  | present k file b buffer there value kept =>
      cases known : s.buffered n with
      | none =>
          rw [known] at value
          exact Or.inl ⟨file, there, Or.inl value⟩
      | some b' =>
          rw [known] at value
          subst value
          exact Or.inr (kept _ (lookup_of_buffered known))

theorem acts_getLibFileHash :
    Acts (Gain sha256 env n) (getLibFileHash sha256 env n) s (Hashed sha256 env n s) := by
  refine acts_getLibAsFile.bind ?_
  rintro (_ | b) u fetched
  · exact Acts.pure (.missing u fetched)
  refine Acts.get_bind ?_
  split
  case isTrue hit =>
    obtain ⟨x, known⟩ := Lru.contains_iff.mp hit
    obtain ⟨hashes, got, same⟩ := Lru.get_of_lookup known
    refine Acts.get_bind ((acts_returned _).bind ?_)
    rintro _ _ ⟨answer, rfl⟩
    cases got.symm.trans answer
    refine (acts_setHashes (fun _ => hashes) ?_ ?_).bind ?_
    · intro x' h
      exact (same n).trans h
    · intro m x' h
      exact Or.inl ((same m).symm.trans h)
    · rintro - t rfl
      rw [fetched.hashCache_eq] at known same
      exact Acts.pure (.found b x _ hashes fetched (Or.inl known) ((same n).trans known))
  case isFalse miss =>
    have unknown : u.hashCache.lookup n = none :=
      Lru.contains_eq_false.mp (Bool.eq_false_iff.mpr miss)
    refine (acts_setHashes (Lru.put · n (sha256 b)) ?_ ?_).bind ?_
    · intro x' h
      cases unknown.symm.trans h
    · intro m x' h
      by_cases same : m = n
      · subst same
        cases Lru.lookup_put_self.symm.trans h
        exact Or.inr ⟨rfl, b, rfl, fetched.handed⟩
      · exact Or.inl (Lru.lookup_put_of_ne same h)
    · rintro - t rfl
      rw [fetched.hashCache_eq] at unknown
      exact Acts.pure (.found b _ u _ fetched (Or.inr ⟨unknown, rfl⟩) Lru.lookup_put_self)

/-! ## Loading and unloading -/

theorem lookup_of_mem (member : n ∈ s.libLoaders) :
    ∃ loader, s.libLoaders.lookup n = some loader := by
  rw [← Option.isSome_iff_exists, Finmap.lookup_isSome]
  exact member

theorem mem_of_lookup {loader : LibLoader} (registered : s.libLoaders.lookup n = some loader) :
    n ∈ s.libLoaders := by
  rw [← Finmap.lookup_isSome, registered]
  rfl

theorem lookup_withLoader {loader : LibLoader} :
    (s.withLoader n loader).libLoaders.lookup m =
      if m = n then some loader else s.libLoaders.lookup m := by
  split
  case isTrue same =>
    subst same
    exact Finmap.lookup_insert _
  case isFalse other => exact Finmap.lookup_insert_of_ne _ other

theorem lookup_of_erase {loader : LibLoader}
    (registered : (s.libLoaders.erase n).lookup m = some loader) :
    m ≠ n ∧ s.libLoaders.lookup m = some loader := by
  by_cases same : m = n
  · subst same
    cases (Finmap.lookup_erase m _).symm.trans registered
  · rw [Finmap.lookup_erase_ne same] at registered
    exact ⟨same, registered⟩

theorem loadLib_run (env : Outside Params Obj) {b : Bytes} (new : n ∉ s.libLoaders)
    (file : s.fileAt (s.getLibPath n) = some b) :
    (loadLib env n).run s =
      if env.dlopenFails then
        .error (.runtimeError env.errorMsg) (s.withLoader n { pathToLib := s.getLibPath n })
      else .ok () (s.withOpened n (env.linked (s.getLibPath n) b)) := by
  have file' (loaders : UnorderedMap LibName LibLoader) :
      ({ s with libLoaders := loaders } : Registry).fileAt (s.getLibPath n) = some b := file
  cases fails : env.dlopenFails <;>
    simp [loadLib, openLib, loaderAt, setLoader, withLoader, withOpened, fails, file',
      UnorderedMap.emplace_of_notMem new, Finmap.insert_insert]

theorem acts_loadLib {b : Bytes} (new : n ∉ s.libLoaders)
    (file : s.fileAt (s.getLibPath n) = some b) :
    Acts (Gain sha256 env n) (loadLib env n) s fun _ t =>
      t = s.withOpened n (env.linked (s.getLibPath n) b) := by
  have run := loadLib_run env new file
  cases fails : env.dlopenFails with
  | true =>
      rw [fails, if_pos rfl] at run
      exact Acts.of_run_error run (.single (.notLoaded b new file fails))
  | false =>
      rw [fails, if_neg Bool.false_ne_true] at run
      exact Acts.of_run_ok run (.single (.loaded b new file)) rfl

theorem closeLib_run (env : Outside Params Obj) {loader : LibLoader}
    (registered : s.libLoaders.lookup n = some loader) :
    (closeLib env n).run s = match loader.handle with
      | none => .ok () s
      | some handle =>
          if env.dlcloseFails then .error (.runtimeError env.errorMsg) s
          else .ok () { s.withLoader n { loader with handle := none } with
            closed := insert handle.number s.closed } := by
  cases opened : loader.handle with
  | none => simp [closeLib, loaderAt, registered, opened]
  | some handle =>
      cases fails : env.dlcloseFails <;>
        simp [closeLib, loaderAt, withLoader, registered, opened, fails]

theorem unloadLib_run (env : Outside Params Obj) {loader : LibLoader}
    (registered : s.libLoaders.lookup n = some loader) :
    (unloadLib env n).run s = match loader.handle with
      | none => .ok () { s with libLoaders := s.libLoaders.erase n }
      | some handle =>
          if env.dlcloseFails then .error (.runtimeError env.errorMsg) s
          else .ok () { s with
            libLoaders := s.libLoaders.erase n
            closed := insert handle.number s.closed } := by
  have member : n ∈ s.libLoaders := mem_of_lookup registered
  have closing := closeLib_run env registered
  cases opened : loader.handle with
  | none => simp [unloadLib, member, closing, opened]
  | some handle =>
      cases fails : env.dlcloseFails <;>
        simp [unloadLib, withLoader, member, closing, opened, fails,
          UnorderedMap.erase_insert_self]

theorem acts_unloadLib : Acts (Refresh sha256 env n) (unloadLib env n) s fun _ t =>
    ∃ closed, t = { s with libLoaders := s.libLoaders.erase n, closed := closed } := by
  by_cases member : n ∈ s.libLoaders
  · obtain ⟨loader, registered⟩ := lookup_of_mem member
    have run := unloadLib_run env registered
    cases opened : loader.handle with
    | none =>
        rw [opened] at run
        have effect : Loss env n s _ := .unregistered loader registered opened
        exact Acts.of_run_ok run (.single (Or.inr effect)) ⟨_, rfl⟩
    | some handle =>
        rw [opened] at run
        dsimp only at run
        split at run
        case isTrue => exact Acts.of_run_error run .refl
        case isFalse works =>
          have effect : Loss env n s _ :=
            .unloaded loader handle registered opened (Bool.eq_false_iff.mpr works)
          exact Acts.of_run_ok run (.single (Or.inr effect)) ⟨_, rfl⟩
  · have run : (unloadLib env n).run s = .ok () s := by simp [unloadLib, member]
    have unchanged : s.libLoaders.erase n = s.libLoaders :=
      UnorderedMap.erase_of_lookup_none (Finmap.lookup_eq_none.mpr member)
    refine Acts.of_run_ok run .refl ⟨s.closed, ?_⟩
    rw [unchanged]

/-- The registry without the cache entries of `n`. -/
def forgetting (s : Registry) (n : LibName) : Registry :=
  { s with
    libFilesBuffer := if s.useInMemoryCache then s.libFilesBuffer.erase (s.getLibPath n)
      else s.libFilesBuffer
    hashCache := if s.hashCache.contains n then s.hashCache.erase n else s.hashCache }

/-- The file operations of `_delete_lib_file`. -/
theorem removeFile_run (env : Outside Params Obj) (s : Registry) (path : String) :
    (do
      orThrow (← fileOp env)
      if ((← get).fileAt path).isSome then
        orThrow (← fileOp env)
        modify fun t => { t with files := Function.update t.files (t.locate path) none } :
          RegistryM Unit).run s =
      match env.fileError s.fileOps, (s.fileAt path).isSome, env.fileError (s.fileOps + 1) with
      | some e, _, _ => .error e (s.counted (s.fileOps + 1) s.asked)
      | none, false, _ => .ok () (s.counted (s.fileOps + 1) s.asked)
      | none, true, some e => .error e (s.counted (s.fileOps + 2) s.asked)
      | none, true, none => .ok () { s.counted (s.fileOps + 2) s.asked with
          files := Function.update s.files (s.locate path) none } := by
  have file' (k : Nat) : ({ s with fileOps := k } : Registry).fileAt path = s.fileAt path := rfl
  cases looking : env.fileError s.fileOps <;> cases file : (s.fileAt path).isSome <;>
  cases removing : env.fileError (s.fileOps + 1) <;>
  simp [fileOp, orThrow, counted, looking, file', file, removing]

theorem deleteLibFile_run (env : Outside Params Obj) (s : Registry) (n : LibName) :
    (deleteLibFile env n).run s =
      match env.fileError s.fileOps, (s.fileAt (s.getLibPath n)).isSome,
        env.fileError (s.fileOps + 1) with
      | some e, _, _ => .error e ((s.forgetting n).counted (s.fileOps + 1) s.asked)
      | none, false, _ => .ok () ((s.forgetting n).counted (s.fileOps + 1) s.asked)
      | none, true, some e => .error e ((s.forgetting n).counted (s.fileOps + 2) s.asked)
      | none, true, none => .ok () { (s.forgetting n).counted (s.fileOps + 2) s.asked with
          files := Function.update s.files (s.locate (s.getLibPath n)) none } := by
  have removes := removeFile_run env (s.forgetting n) (s.getLibPath n)
  have forgets : (deleteLibFile env n).run s = (do
      orThrow (← fileOp env)
      if ((← get).fileAt (s.getLibPath n)).isSome then
        orThrow (← fileOp env)
        modify fun t => { t with
          files := Function.update t.files (t.locate (s.getLibPath n)) none } :
          RegistryM Unit).run (s.forgetting n) := by
    obtain ⟨_, use, _, _, _, hashes, _, _, _, _, _, _⟩ := s
    cases use <;> cases hit : hashes.contains n <;>
      simp only [deleteLibFile, EStateM.run_bind, EStateM.run_get, EStateM.run_modify,
        forgetting, hit, if_true, if_false, Bool.false_eq_true]
  rw [forgets, removes]
  rfl

theorem forgetting_buffer_self (use : s.useInMemoryCache = true) :
    (s.forgetting n).libFilesBuffer.lookup (s.getLibPath n) = none := by
  simp [forgetting, use]

theorem forgetting_hash_self : (s.forgetting n).hashCache.lookup n = none := by
  simp only [forgetting]
  split
  · exact Lru.lookup_erase_self
  · exact Lru.contains_eq_false.mp (Bool.eq_false_iff.mpr ‹_›)

theorem forgetting_buffer {p : String} {b : Bytes}
    (found : (s.forgetting n).libFilesBuffer.lookup p = some b) :
    s.libFilesBuffer.lookup p = some b := by
  simp only [forgetting] at found
  split at found
  · by_cases same : p = s.getLibPath n
    · subst same
      cases Lru.lookup_erase_self.symm.trans found
    · rw [Lru.lookup_erase_of_ne same] at found
      exact found
  · exact found

theorem forgetting_hash {m : LibName} {x : String}
    (found : (s.forgetting n).hashCache.lookup m = some x) : s.hashCache.lookup m = some x := by
  by_cases same : m = n
  · subst same
    cases forgetting_hash_self.symm.trans found
  · simp only [forgetting] at found
    split at found
    · rw [Lru.lookup_erase_of_ne same] at found
      exact found
    · exact found

/-- The outcome of `_delete_lib_file`. -/
structure Deleted (n : LibName) (s t : Registry) : Prop where
  localCache : t.localCache = s.localCache
  asked : t.asked = s.asked
  libLoaders : t.libLoaders = s.libLoaders
  file : t.fileAt (t.getLibPath n) = none

theorem acts_deleteLibFile (notLoaded : n ∉ s.libLoaders) :
    Acts (Refresh sha256 env n) (deleteLibFile env n) s fun _ t => Deleted n s t := by
  have run := deleteLibFile_run env s n
  have forgotten : Relation.ReflTransGen (Refresh sha256 env n) s (s.forgetting n) :=
    .single (Or.inr (.forgotten _ _ (fun _ _ => forgetting_buffer) fun _ _ => forgetting_hash))
  have counted (k : Nat) : Relation.ReflTransGen (Refresh sha256 env n) s
      ((s.forgetting n).counted k s.asked) := forgotten.tail (Or.inl (.counted k))
  split at run
  case h_1 => exact Acts.of_run_error run (counted _)
  case h_2 looking absent =>
    refine Acts.of_run_ok run (counted _) ⟨rfl, rfl, rfl, ?_⟩
    exact Option.isNone_iff_eq_none.mp (Option.isSome_eq_false_iff.mp absent)
  case h_3 => exact Acts.of_run_error run (counted _)
  case h_4 =>
    refine Acts.of_run_ok run ((counted _).tail (Or.inr (.deleted notLoaded ?_ ?_)))
      ⟨rfl, rfl, rfl, Function.update_self _ _ _⟩
    · exact forgetting_buffer_self (s := s)
    · exact forgetting_hash_self (s := s)

/-- The outcome of `provideLib`: the library was registered, or is opened from a file that
    was there or has been downloaded. -/
inductive Provided (env : Outside Params Obj) (n : LibName) (s : Registry) : Registry → Prop where
  | already (registered : n ∈ s.libLoaders) : Provided env n s s
  | fromDisk (k : Nat) (b : Bytes) (new : n ∉ s.libLoaders)
      (file : s.fileAt (s.getLibPath n) = some b) :
      Provided env n s ((s.counted k s.asked).withOpened n (env.linked (s.getLibPath n) b))
  | downloaded (k : Nat) (b : Bytes) (new : n ∉ s.libLoaders)
      (absent : s.fileAt (s.getLibPath n) = none)
      (answer : env.provider s.asked.length n = .ok (some b))
      (works : env.writeFails (s.asked.length + 1) = false) :
      Provided env n s
        (((s.counted k (s.asked ++ [n])).withFile n (env.written (s.asked.length + 1) b)).withOpened
          n (env.linked (s.getLibPath n) (env.written (s.asked.length + 1) b)))

theorem acts_provideLib (function : String) :
    Acts (Gain sha256 env n) (provideLib env function n) s fun _ t => Provided env n s t := by
  refine Acts.get_bind ?_
  split
  case isTrue registered => exact Acts.pure (.already registered)
  case isFalse new =>
    refine acts_isLibInCache.bind ?_
    intro found t ⟨seen, after⟩
    subst seen after
    split
    case isTrue present =>
      obtain ⟨b, file⟩ := Option.isSome_iff_exists.mp present
      refine (acts_loadLib (b := b) ?_ ?_).bind ?_
      · exact new
      · exact file
      · intro _ t loaded
        subst loaded
        exact Acts.pure (.fromDisk _ b new file)
    case isFalse absent =>
      replace absent : s.fileAt (s.getLibPath n) = none := by simpa using absent
      refine Acts.get_bind ?_
      split
      case isFalse => exact Acts.throw
      case isTrue =>
        refine (acts_callProvider ?_).bind ?_
        · exact absent
        intro r t ⟨answer, after⟩
        subst after
        cases r with
        | none => exact Acts.throw
        | some b =>
            refine (acts_saveLibIntoFs b ?_).bind ?_
            · exact absent
            · intro _ t ⟨works, k, saved⟩
              subst saved
              refine (acts_loadLib (b := env.written (s.asked ++ [n]).length b) ?_ ?_).bind ?_
              · exact new
              · exact Function.update_self _ _ _
              · intro _ t loaded
                subst loaded
                have provided : Provided env n s _ :=
                  .downloaded k b new absent answer (asked_length ▸ works)
                rw [← asked_length] at provided
                exact Acts.pure provided

/-! ## The version check -/

/-- The outcome of the version check: the hash is the requested one, or the library has
    been unloaded and its file deleted. -/
inductive Checked (sha256 : Bytes → String) (env : Outside Params Obj) (n : LibName)
    (h : String) (s : Registry) : Registry → Prop where
  | same (u : Registry) (hashed : Hashed sha256 env n s (some h) u) : Checked sha256 env n h s u
  | outdated (x : String) (u t : Registry) (hashed : Hashed sha256 env n s (some x) u)
      (other : x ≠ h) (localCache : t.localCache = u.localCache) (asked : t.asked = u.asked)
      (unloaded : n ∉ t.libLoaders) (deleted : t.fileAt (t.getLibPath n) = none) :
      Checked sha256 env n h s t

/-- While the file is up to date, nothing is taken away. -/
theorem acts_checkVersion_of_same {h : String}
    (same : ∀ x t, (getLibFileHash sha256 env n).run s = .ok (some x) t → x = h) :
    Acts (Gain sha256 env n) (checkVersion sha256 env n h) s fun _ t =>
      Hashed sha256 env n s (some h) t := by
  refine Acts.bind (P := fun r t => Hashed sha256 env n s r t ∧
    (getLibFileHash sha256 env n).run s = .ok r t) ⟨acts_getLibFileHash.steps, ?_⟩ ?_
  · intro r t run
    exact ⟨acts_getLibFileHash.returns r t run, run⟩
  · intro r u ⟨hashed, run⟩
    cases r with
    | none => exact Acts.throw
    | some x =>
        obtain rfl := same x u run
        simp only [ne_eq, not_true_eq_false, if_false]
        exact Acts.pure hashed

theorem acts_checkVersion {h : String} :
    Acts (Refresh sha256 env n) (checkVersion sha256 env n h) s fun _ t =>
      Checked sha256 env n h s t := by
  refine (acts_getLibFileHash.mono fun _ _ => Refresh.of_gain).bind ?_
  intro r u hashed
  cases r with
  | none => exact Acts.throw
  | some x =>
      dsimp only
      split
      case isFalse same =>
        obtain rfl := not_not.mp same
        exact Acts.pure (.same u hashed)
      case isTrue other =>
        refine acts_unloadLib.bind ?_
        intro _ t ⟨closed, unloaded⟩
        subst unloaded
        refine (acts_deleteLibFile Finmap.notMem_erase_self).weaken ?_
        intro _ t deleted
        refine .outdated x u t hashed other deleted.localCache deleted.asked ?_ deleted.file
        rw [deleted.libLoaders]
        exact Finmap.notMem_erase_self

/-! ## Instances -/

/-- The outcome of `get_instance` and `clone_instance`: the functions have been found, and
    the instance belongs to the open of the loader. -/
def Instantiated (env : Outside Params Obj) (symbol : LibLoader → String) (n : LibName)
    (s : Registry) (made : UdpBase Obj) (t : Registry) : Prop :=
  ∃ loader, s.libLoaders.lookup n = some loader ∧
    made.library = loader.handle.map LibHandle.number ∧
    env.dlsym (symbol loader) = true ∧ env.dlsym loader.deleteSymbol = true ∧
    (t = s ∨ t = s.withLoader n { loader with afterLoadExecuted := true })

theorem acts_loaderAt {R : Registry → Registry → Prop} :
    Acts R (loaderAt n) s fun loader t => s.libLoaders.lookup n = some loader ∧ t = s := by
  refine Acts.get_bind ?_
  split
  case h_1 => exact Acts.throw
  case h_2 loader registered => exact Acts.pure ⟨registered, rfl⟩

theorem acts_ensureAfterLoad {loader : LibLoader}
    (registered : s.libLoaders.lookup n = some loader) :
    Acts (Use n) (ensureAfterLoad env n) s fun _ t =>
      t = s ∨ t = s.withLoader n { loader with afterLoadExecuted := true } := by
  refine acts_loaderAt.bind ?_
  intro loader' t ⟨registered', after⟩
  subst after
  obtain rfl := Option.some.inj (registered.symm.trans registered')
  split
  case isTrue => exact Acts.pure (Or.inl rfl)
  case isFalse =>
    refine Acts.bind (P := fun _ t => t = _)
      (Acts.modify (.ranAfterLoad loader registered) rfl) ?_
    intro _ t after
    subst after
    split
    · refine (acts_returned _).weaken ?_
      intro _ t ⟨_, after⟩
      exact Or.inr after
    · exact Acts.pure (Or.inr rfl)

theorem acts_closeLib {loader : LibLoader} (registered : s.libLoaders.lookup n = some loader)
    (missing : env.dlsym loader.allocSymbol = false ∨ env.dlsym loader.deleteSymbol = false) :
    Acts (Close env n) (closeLib env n) s fun _ _ => True := by
  have run := closeLib_run env registered
  cases opened : loader.handle with
  | none =>
      rw [opened] at run
      exact Acts.of_run_ok run .refl trivial
  | some handle =>
      rw [opened] at run
      dsimp only at run
      split at run
      case isTrue => exact Acts.of_run_error run .refl
      case isFalse works =>
        have effect : Close env n s _ :=
          .closed loader handle registered opened missing (Bool.eq_false_iff.mpr works)
        exact Acts.of_run_ok run (.single effect) trivial

/-- The loader after `_ensure_after_load`. -/
theorem ensureAfterLoad_keeps {loader : LibLoader}
    (registered : s.libLoaders.lookup n = some loader)
    (after : t = s ∨ t = s.withLoader n { loader with afterLoadExecuted := true }) :
    ∃ loader', t.libLoaders.lookup n = some loader' ∧ loader'.handle = loader.handle ∧
      loader'.allocSymbol = loader.allocSymbol ∧ loader'.deleteSymbol = loader.deleteSymbol := by
  rcases after with unchanged | ran
  · subst unchanged
    exact ⟨loader, registered, rfl, rfl, rfl⟩
  · subst ran
    exact ⟨_, Finmap.lookup_insert _, rfl, rfl, rfl⟩

theorem acts_getInstance {params : Params} :
    Acts (Construct sha256 env n) (getInstance env n params) s
      (Instantiated env LibLoader.allocSymbol n s) := by
  refine acts_loaderAt.bind ?_
  intro loader t ⟨registered, unchanged⟩
  subst unchanged
  refine ((acts_ensureAfterLoad registered).mono fun _ _ => Construct.of_use).bind ?_
  intro _ t after
  split
  case isTrue missing =>
    obtain ⟨loader', registered', -, alloc, delete⟩ := ensureAfterLoad_keeps registered after
    have missing' : env.dlsym loader'.allocSymbol = false ∨
        env.dlsym loader'.deleteSymbol = false := by
      rw [alloc, delete]
      simpa using missing
    have closing : Acts (Construct sha256 env n) (closeLib env n) t fun _ _ => True :=
      (acts_closeLib registered' missing').mono fun _ _ => Construct.of_close
    exact closing.bind fun _ _ _ => Acts.throw
  case isFalse found =>
    refine (acts_returned _).bind ?_
    intro object t ⟨_, unchanged⟩
    subst unchanged
    have found' : env.dlsym loader.allocSymbol = true ∧ env.dlsym loader.deleteSymbol = true := by
      simpa using found
    exact Acts.pure ⟨loader, registered, rfl, found'.1, found'.2, after⟩

theorem acts_cloneInstance {other : UdpBase Obj} :
    Acts (Use n) (cloneInstance env n other) s (Instantiated env LibLoader.cloneSymbol n s) := by
  refine acts_loaderAt.bind ?_
  intro loader t ⟨registered, unchanged⟩
  subst unchanged
  refine (acts_ensureAfterLoad registered).bind ?_
  intro _ t after
  split
  case isTrue => exact Acts.throw
  case isFalse found =>
    refine (acts_returned _).bind ?_
    intro object t ⟨_, unchanged⟩
    subst unchanged
    have found' : env.dlsym loader.cloneSymbol = true ∧ env.dlsym loader.deleteSymbol = true := by
      simpa using found
    exact Acts.pure ⟨loader, registered, rfl, found'.1, found'.2, after⟩

/-! ## The public functions -/

/-- The outcome of `initialize_udp`. -/
inductive Initialized (sha256 : Bytes → String) (env : Outside Params Obj) (n : LibName)
    (s : Registry) : Option String → Registry → Prop where
  | unchecked (t : Registry) (provided : Provided env n s t) : Initialized sha256 env n s none t
  | checked (h : String) (u t : Registry) (checked : Checked sha256 env n h s u)
      (provided : Provided env n u t) : Initialized sha256 env n s (some h) t

theorem acts_initializeUdp {hash? : Option String} :
    Acts (Refresh sha256 env n) (initializeUdp sha256 env n hash?) s fun _ t =>
      Initialized sha256 env n s hash? t := by
  cases hash? with
  | none =>
      refine ((acts_provideLib "initialize").mono fun _ _ => Refresh.of_gain).weaken ?_
      intro _ t provided
      exact .unchecked t provided
  | some h =>
      refine acts_checkVersion.bind ?_
      intro _ u checked
      refine ((acts_provideLib "initialize").mono fun _ _ => Refresh.of_gain).weaken ?_
      intro _ t provided
      exact .checked h u t checked provided

/-- The call finds another version than the requested one. -/
def Outdated (sha256 : Bytes → String) (env : Outside Params Obj) (s : Registry) (n : LibName)
    (h : String) : Prop :=
  ∃ x u, (getLibFileHash sha256 env n).run (s.counted 0 []) = .ok (some x) u ∧ x ≠ h

theorem hash_of_upToDate {h : String} (upToDate : ¬Outdated sha256 env s n h) (x : String)
    (t : Registry)
    (run : (getLibFileHash sha256 env n).run (s.counted 0 []) = .ok (some x) t) : x = h := by
  by_contra other
  exact upToDate ⟨x, t, run, other⟩

/-- While the file is up to date, nothing is taken away. -/
theorem acts_initializeUdp_of_same {h : String}
    (same : ∀ x t, (getLibFileHash sha256 env n).run s = .ok (some x) t → x = h) :
    Acts (Gain sha256 env n) (initializeUdp sha256 env n (some h)) s fun _ _ => True := by
  refine (acts_checkVersion_of_same same).bind ?_
  intro _ u _
  exact (acts_provideLib "initialize").weaken fun _ _ _ => trivial

theorem acts_constructUdp {params : Params} :
    Acts (Construct sha256 env n) (constructUdp env n params) s fun made t =>
      ∃ u, Provided env n s u ∧ Instantiated env LibLoader.allocSymbol n u made t := by
  refine ((acts_provideLib "construct").mono fun _ _ => Construct.of_gain).bind ?_
  intro _ u provided
  exact acts_getInstance.weaken fun made t instantiated => ⟨u, provided, instantiated⟩

theorem acts_cloneUdp {other : UdpBase Obj} :
    Acts (Use (env.libFileName other.object)) (cloneUdp env other) s
      (Instantiated env LibLoader.cloneSymbol (env.libFileName other.object) s) := by
  refine Acts.get_bind ?_
  split
  · exact acts_cloneInstance
  · exact Acts.throw

end Registry

end Metasolver
