import Metasolver.Discovery.Process

/-!
# The version that is loaded

`initialize_udp` compares the requested hash with the one it is told of what
`get_lib_as_file` hands out.  Nothing is compared afterwards: neither the file that is then
opened nor the one that replaces an outdated file.  From the state before the call it
follows which version is loaded when the call returns.
-/

namespace Metasolver

open Effects

namespace Registry

variable {Params Obj : Type} {sha256 : Bytes → String} {env : Outside Params Obj}
  {n : LibName} {s t u : Registry} {h x : String}

/-- The bytes that `get_lib_as_file` hands out at the beginning of a call. -/
def handedOut (env : Outside Params Obj) (s : Registry) (n : LibName) : Option Bytes :=
  match s.fileAt (s.getLibPath n), env.provider 0 n with
  | some file, _ => some ((s.buffered n).getD (env.readFile file))
  | none, .ok answer => answer
  | none, .error _ => none

/-- The hash that `get_lib_file_hash` tells: the cached one, or else that of the bytes. -/
def toldHash (sha256 : Bytes → String) (env : Outside Params Obj) (s : Registry) (n : LibName) :
    Option String :=
  (handedOut env s n).map fun b => (s.hashCache.lookup n).getD (sha256 b)

/-- The file of `n` after its hash has been told. -/
def fileThere (env : Outside Params Obj) (s : Registry) (n : LibName) : Option Bytes :=
  match s.fileAt (s.getLibPath n), env.provider 0 n with
  | some file, _ => some file
  | none, .ok answer => answer.map (env.written 1)
  | none, .error _ => none

/-- The file of `n` after the one that was told has been deleted. -/
def nextFile (env : Outside Params Obj) (s : Registry) (n : LibName) : Option Bytes :=
  let k := if (s.fileAt (s.getLibPath n)).isSome then 0 else 1
  match env.provider k n with
  | .ok answer => answer.map (env.written (k + 1))
  | .error _ => none

/-- Opening the library of `n` with this file gives bytes with the hash `h`. -/
def Links (sha256 : Bytes → String) (env : Outside Params Obj) (s : Registry) (n : LibName)
    (h : String) (file : Option Bytes) : Prop :=
  ∃ b, file = some b ∧ sha256 (env.linked (s.getLibPath n) b) = h

/-- The library of `n` has been opened from bytes with the hash `h`. -/
def RunsVersion (sha256 : Bytes → String) (s : Registry) (n : LibName) (h : String) : Prop :=
  ∃ loader handle, s.libLoaders.lookup n = some loader ∧ loader.handle = some handle ∧
    sha256 handle.file = h

theorem links_some {b : Bytes} :
    Links sha256 env s n h (some b) ↔ sha256 (env.linked (s.getLibPath n) b) = h := by
  simp [Links]

theorem runsVersion_withOpened {b : Bytes} :
    RunsVersion sha256 (s.withOpened n b) n h ↔ sha256 b = h := by
  have registered : (s.withOpened n b).libLoaders.lookup n =
      some { pathToLib := s.getLibPath n, handle := some ⟨s.opened, b⟩ } := Finmap.lookup_insert _
  constructor
  · intro ⟨loader, handle, found, opened, hash⟩
    cases registered.symm.trans found
    cases opened
    exact hash
  · intro hash
    exact ⟨_, _, registered, rfl, hash⟩

theorem runsVersion_congr (loaders : t.libLoaders = s.libLoaders) :
    RunsVersion sha256 t n h ↔ RunsVersion sha256 s n h := by
  rw [RunsVersion, loaders]
  rfl

/-- The state in which a hash has been told. -/
structure Told (sha256 : Bytes → String) (env : Outside Params Obj) (n : LibName) (s : Registry)
    (x : String) (u : Registry) : Prop where
  hash : toldHash sha256 env s n = some x
  file : u.fileAt (u.getLibPath n) = fileThere env s n
  libLoaders : u.libLoaders = s.libLoaders
  localCache : u.localCache = s.localCache
  asked : u.asked.length = if (s.fileAt (s.getLibPath n)).isSome then 0 else 1

theorem Hashed.told (hashed : Hashed sha256 env n (s.counted 0 []) (some x) u) :
    Told sha256 env n s x u := by
  cases hashed with
  | found b _ v hashes fetched value =>
      have cached : (s.hashCache.lookup n).getD (sha256 b) = x := by
        rcases value with known | ⟨unknown, hash⟩
        · rw [show s.hashCache.lookup n = some x from known]
          rfl
        · rw [show s.hashCache.lookup n = none from unknown, hash]
          rfl
      cases fetched with
      | downloaded k b absent answer =>
          have absent' : s.fileAt (s.getLibPath n) = none := absent
          have answer' : env.provider 0 n = .ok (some b) := answer
          refine ⟨?_, ?_, rfl, rfl, ?_⟩
          · simp only [toldHash, handedOut, absent', answer', Option.map_some, cached]
          · simp only [fileThere, absent', answer', Option.map_some]
            exact Function.update_self _ _ _
          · rw [absent']
            rfl
      | present k file b buffer there value =>
          have there' : s.fileAt (s.getLibPath n) = some file := there
          have value' : (s.buffered n).getD (env.readFile file) = b := value.symm
          refine ⟨?_, ?_, rfl, rfl, ?_⟩
          · simp only [toldHash, handedOut, there', value', Option.map_some, cached]
          · simp only [fileThere, there']
            exact there
          · rw [there']
            rfl

theorem Told.getLibPath (told : Told sha256 env n s x u) : u.getLibPath n = s.getLibPath n := by
  rw [Registry.getLibPath, told.localCache, Registry.getLibPath]

/-- Up to date: a registered library is taken as it is, another one is opened. -/
theorem Told.runsVersion_iff (told : Told sha256 env n s x u) (provided : Provided env n u t) :
    RunsVersion sha256 t n h ↔
      (n ∈ s.libLoaders → RunsVersion sha256 s n h) ∧
        (n ∉ s.libLoaders → Links sha256 env s n h (fileThere env s n)) := by
  cases provided with
  | already registered =>
      rw [told.libLoaders] at registered
      simp only [registered, true_implies, not_true_eq_false, false_implies, and_true]
      exact runsVersion_congr told.libLoaders
  | fromDisk k b new file =>
      rw [told.libLoaders] at new
      rw [told.file] at file
      simp only [new, false_implies, true_and, not_false_eq_true, true_implies, file, links_some]
      rw [runsVersion_withOpened, told.getLibPath]
  | downloaded k b new absent answer =>
      -- the file is there once its hash has been told
      have hash := told.hash
      have file := told.file
      rw [absent] at file
      simp only [toldHash, handedOut, fileThere] at hash file
      cases there : s.fileAt (s.getLibPath n) with
      | some b' =>
          rw [there] at file
          cases file
      | none =>
          rw [there] at file hash
          cases sent : env.provider 0 n with
          | error e =>
              rw [sent] at hash
              cases hash
          | ok answer =>
              rw [sent] at file hash
              obtain rfl := Option.map_eq_none_iff.mp file.symm
              cases hash

/-- An outdated library is opened from what the provider sends next. -/
theorem Told.replaced_iff (told : Told sha256 env n s x u)
    (localCache : t.localCache = u.localCache) (asked : t.asked = u.asked) (unloaded : n ∉ t.libLoaders)
    (deleted : t.fileAt (t.getLibPath n) = none) {v : Registry} (provided : Provided env n t v) :
    RunsVersion sha256 v n h ↔ Links sha256 env s n h (nextFile env s n) := by
  have path : t.getLibPath n = s.getLibPath n := by
    rw [Registry.getLibPath, localCache, told.localCache, Registry.getLibPath]
  have count : t.asked.length = if (s.fileAt (s.getLibPath n)).isSome then 0 else 1 := by
    rw [asked, told.asked]
  cases provided with
  | already registered => exact absurd registered unloaded
  | fromDisk k b new file => cases deleted.symm.trans file
  | downloaded k b new absent answer =>
      rw [count] at answer ⊢
      have next : nextFile env s n = some (env.written
          ((if (s.fileAt (s.getLibPath n)).isSome then 0 else 1) + 1) b) := by
        simp only [nextFile, answer, Option.map_some]
      rw [runsVersion_withOpened, next, links_some, path]

/-- A registry with a provider and the file of the examples. -/
def sampleProvided : Registry :=
  { (Process.start "." id sampleFiles : Process Unit).registry with udpProvider := true }

end Registry

end Metasolver
